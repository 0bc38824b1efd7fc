import OrgClient.Client.Query
import OrgClient.Client.Resource
import OrgClient.Proofs.Client.Saving

namespace OrgClient

open Http (Message Network Session)
open Record
set_option autoImplicit true

/-- An outcome that does not say that what was asked for is refused. -/
def Unrefused (x : Except Error β) : Prop :=
  ∀ e, x = .error e → e.isPrecondition = false

namespace Unrefused

theorem ok (b : β) : Unrefused (.ok b) :=
  nofun

theorem ofHttp (x : Except Http.Error β) : Unrefused (x.mapError Error.ofHttp) := by
  intro e h
  cases x with
  | error e' =>
    cases h
    rfl
  | ok b => cases h

theorem bind {x : Except Error β} {f : β → Except Error γ} (hx : Unrefused x)
    (hf : ∀ b, Unrefused (f b)) : Unrefused (x >>= f) := by
  intro e h
  rcases bind_eq_error_iff.mp h with h | ⟨b, -, h⟩
  · exact hx e h
  · exact hf b e h

theorem map {x : Except Error β} (f : β → γ) (hx : Unrefused x) : Unrefused (x.map f) := by
  cases x with
  | error e =>
    intro e' h
    cases h
    exact hx e rfl
  | ok b => exact ok (f b)

theorem reconcile (T : RecordType κ α) (takesId : Bool) (rs : List α)
    (results : List SaveResult) : Unrefused (T.reconcile takesId rs results) := by
  intro e h
  unfold RecordType.reconcile at h
  split at h
  · cases h
    rfl
  · cases h

end Unrefused

theorem BatchCall.unrefused (call : BatchCall) (c : Connection) (T : RecordType κ α) (rs : List α)
    (r : Http.Request) (n : Network) : Unrefused (call.outcome c T rs r n) := by
  cases call with
  | save s =>
    refine .bind (.ofHttp _) fun results => ?_
    exact .bind (.reconcile T s.takesId rs results) fun rs' => .ok _
  | delete allOrNone => exact .map _ (.ofHttp _)

/-- A computation that does not touch the network. -/
def Quiet (x : ExceptT ε (StateM Session) β) : Prop :=
  ∀ s, (x.run s).2.network = s.network

namespace Quiet

theorem pure (b : β) : Quiet (Pure.pure b : ExceptT ε (StateM Session) β) :=
  fun _ => rfl

theorem ofExcept (x : Except ε β) : Quiet (ExceptT.mk (Pure.pure x)) :=
  fun _ => rfl

theorem bind {x : ExceptT ε (StateM Session) β} {f : β → ExceptT ε (StateM Session) γ}
    (hx : Quiet x) (hf : ∀ b, Quiet (f b)) : Quiet (x >>= f) := by
  intro s
  have h := hx s
  rw [run_bind_state]
  rcases hr : x.run s with ⟨e | b, s'⟩ <;> rw [hr] at h
  · exact h
  · exact (hf b s').trans h

theorem ofQuery {x : ExceptT Soql.Error (StateM Session) β} (hx : Quiet x) :
    Quiet (Work.ofQuery x) :=
  hx

theorem composed (texts : List String) :
    Quiet (ExceptT.lift (Soql.Tracer.composed texts) : ExceptT ε (StateM Session) Unit) := by
  induction texts with
  | nil => exact fun _ => rfl
  | cons text texts ih => exact fun s => ih ((Http.note .trace "composed query" []).run s).2

theorem composeIn (q : Soql.Query) :
    Quiet (q.composeIn : ExceptT Soql.Error (StateM Session) String) :=
  .bind (composed q.composed) fun _ => .ofExcept q.compose

end Quiet

namespace Work

/-- Work that never says that what was asked for is refused. -/
def Unrefusing (w : Work β) : Prop :=
  ∀ s, Unrefused (w.run s).1

/-- Work that has not touched the network when it says that what was asked for is refused. -/
def RefusesFirst (w : Work β) : Prop :=
  ∀ s e, (w.run s).1 = .error e → e.isPrecondition → (w.run s).2.network = s.network

theorem Unrefusing.pure (b : β) : Unrefusing (Pure.pure b) :=
  fun _ => .ok b

theorem Unrefusing.ofCall (call : Http.Call β) : Unrefusing (Work.ofCall call) :=
  fun s => .ofHttp (call.run s).1

theorem Unrefusing.note (level : Http.Level) (message : String)
    (data : List (String × Http.Datum)) : Unrefusing (Work.note level message data) :=
  fun _ => .ok ()

theorem Unrefusing.get : Unrefusing (ExceptT.lift (MonadState.get : StateM Session Session)) :=
  fun s => .ok s

theorem Unrefusing.bind {w : Work β} {f : β → Work γ} (hw : Unrefusing w)
    (hf : ∀ b, Unrefusing (f b)) : Unrefusing (w >>= f) := by
  intro s
  have h := hw s
  rw [run_bind_state]
  rcases hr : w.run s with ⟨e | b, s'⟩ <;> rw [hr] at h
  · intro e' he
    cases he
    exact h e rfl
  · exact hf b s'

theorem Unrefusing.refusesFirst {w : Work β} (h : Unrefusing w) : RefusesFirst w := by
  intro s e he hp
  rw [h s e he] at hp
  cases hp

/-- What comes behind quiet work has to refuse before it touches the network. -/
theorem RefusesFirst.bind {w : Work β} {f : β → Work γ} (hw : Quiet w)
    (hf : ∀ b, RefusesFirst (f b)) : RefusesFirst (w >>= f) := by
  intro s e he hp
  have h := hw s
  rw [run_bind_state] at he ⊢
  rcases hr : w.run s with ⟨e' | b, s'⟩ <;> rw [hr] at h he
  · exact h
  · exact (hf b s' e he hp).trans h

end Work

namespace Connection

open Work (RefusesFirst Unrefusing)

theorem followPages_unrefusing (c : Connection) (row : Json.Decoder β) (pages : Nat)
    (page : Org.Page β) : Unrefusing (c.followPages row pages page) := by
  -- Each page is asked for by a call, and calls fail by the transport only.
  induction pages generalizing page with
  | zero => exact .pure page.records
  | succ pages ih =>
    unfold followPages
    split
    · exact .pure page.records
    · refine .bind (.ofCall _) fun next => .bind (.note _ _ _) fun _ => ?_
      exact .bind (ih next) fun rows => .pure _

theorem queryAll_unrefusing (c : Connection) (row : Json.Decoder β) (soql : String) :
    Unrefusing (c.queryAll row soql) :=
  .bind (.ofCall _) fun first => .bind .get fun _ => c.followPages_unrefusing row _ first

theorem checkName_quiet (name : String) : Quiet (liftM (checkName name) : Work Unit) :=
  fun _ => rfl

theorem describeTable_refusesFirst (c : Connection) (name : String) :
    RefusesFirst (c.describeTable name) :=
  .bind (checkName_quiet name) fun _ => (Unrefusing.ofCall _).refusesFirst

theorem invoke_refusesFirst [Json.Serialize ι] (c : Connection) (action : String)
    (inputs : List ι) : RefusesFirst (c.invoke action inputs) :=
  .bind (checkName_quiet action) fun _ => (Unrefusing.ofCall _).refusesFirst

theorem queryRows_refusesFirst (c : Connection) (row : Json.Decoder β) (q : Soql.Query) :
    RefusesFirst (c.queryRows row q) :=
  .bind (.ofQuery (.composeIn q)) fun soql => (c.queryAll_unrefusing row soql).refusesFirst

theorem retrieve_refusesFirst (c : Connection) (T : RecordType κ α)
    {build : Schema.Resolver κ → ExceptT Soql.Error (StateM Session) Soql.Clauses}
    (hb : ∀ place, Quiet (build place)) : RefusesFirst (c.retrieve T build) := by
  have hq : Quiet (Schema.Resolver.query T.schema T.key build) :=
    .bind (hb _) fun clauses => .pure _
  refine .bind (.ofQuery (.bind hq .composeIn)) fun soql => Unrefusing.refusesFirst ?_
  exact .bind (.note _ _ _) fun _ => c.queryAll_unrefusing T.decode soql

end Connection

namespace BatchCall

variable {call : BatchCall} {c : Connection} {T : RecordType κ α} {rs : List α} {s : Session}

theorem refuses_first (h : ((call.run c T).run (rs, s)).1 = .error e) (hp : e.isPrecondition) :
    ((call.run c T).run (rs, s)).2.2.network = s.network := by
  by_cases hne : rs = []
  · subst hne
    exact (call.ends_nil c T s).network
  · cases hr : call.request c T rs with
    | error e' => exact (ends_of_error s hne hr).network
    | ok r =>
      have ho := (ends_of_ok s hne hr).outcome
      rw [h] at ho
      have hu := (call.unrefused c T rs r s.network).map Prod.fst e ho.symm
      rw [hp] at hu
      cases hu

theorem length_le_of_request (h : call.request c T rs = .ok r) : rs.length ≤ maxBatchSize := by
  have hs : ensureBatchSize rs.length = .ok () := by
    cases call with
    | save s =>
      obtain ⟨path, -, h⟩ := bind_eq_ok_iff.mp h
      obtain ⟨q, hq, -⟩ := bind_eq_ok_iff.mp h
      cases s with
      | insert o => exact (bind_eq_ok_iff.mp hq).choose_spec.1
      | update o => exact (bind_eq_ok_iff.mp hq).choose_spec.1
      | upsert key o =>
        obtain ⟨field, -, hq⟩ := bind_eq_ok_iff.mp hq
        exact (bind_eq_ok_iff.mp hq).choose_spec.1
    | delete allOrNone =>
      cases hi : T.deleteIds rs with
      | error e =>
        rw [request, hi] at h
        cases h
      | ok ids => exact (bind_eq_ok_iff.mp hi).choose_spec.1
  unfold ensureBatchSize at hs
  split at hs
  · cases hs
  · omega

/-- Whether there is a payload for records: the bodies of a save, or the ids of a deletion. -/
def builds (T : RecordType κ α) (rs : List α) : BatchCall → Bool
  | .save s => (s.bodies T rs).toBool
  | .delete _ => (T.deleteIds rs).toBool

theorem request_of_builds (h : call.builds T rs) : ∃ r, call.request c T rs = .ok r := by
  cases call with
  | save s =>
    cases hq : s.bodies T rs with
    | error e =>
      rw [builds, hq] at h
      cases h
    | ok q =>
      obtain ⟨path, hp⟩ : ∃ path, s.path T = .ok path := by
        cases s with
        | insert o => exact ⟨_, rfl⟩
        | update o => exact ⟨_, rfl⟩
        | upsert key o =>
          obtain ⟨field, hf, -⟩ := bind_eq_ok_iff.mp hq
          rw [Saving.path, hf]
          exact ⟨_, rfl⟩
      rw [request, Saving.request, hp, hq]
      exact ⟨_, rfl⟩
  | delete allOrNone =>
    cases hi : T.deleteIds rs with
    | error e =>
      rw [builds, hi] at h
      cases h
    | ok ids =>
      rw [request, hi]
      exact ⟨_, rfl⟩

theorem builds_of_request (h : call.request c T rs = .ok r) : call.builds T rs := by
  cases call with
  | save s =>
    obtain ⟨path, -, h⟩ := bind_eq_ok_iff.mp h
    obtain ⟨q, hq, -⟩ := bind_eq_ok_iff.mp h
    rw [builds, hq]
    rfl
  | delete allOrNone =>
    obtain ⟨ids, hi, -⟩ := map_eq_ok_iff.mp h
    rw [builds, hi]
    rfl

/-- What a call hands over for a batch. For an empty one it is nothing, and the call ends as it has
been checked. For any other it is one request if there is a payload, which there is not if the batch
is too large, and nothing otherwise. Whatever becomes of the request, nothing else is handed over.
-/
structure HandsOver (call : BatchCall) (c : Connection) (T : RecordType κ α) (rs : List α)
    (s : Session) : Prop where
  empty : rs = [] → ((call.run c T).run (rs, s)).1 = (call.checked T).map (fun _ => []) ∧
    ((call.run c T).run (rs, s)).2.2.network = s.network
  large : maxBatchSize < rs.length → call.builds T rs = false ∧
    ((call.run c T).run (rs, s)).2.2.network = s.network
  unbuilt : rs ≠ [] → call.builds T rs = false →
    ((call.run c T).run (rs, s)).2.2.network = s.network
  built : rs ≠ [] → call.builds T rs = true → ∃ r, call.request c T rs = .ok r ∧
    ((call.run c T).run (rs, s)).2.2.network.handed = s.network.handed ++ [r] ∧
    ∃ e : Http.Exchange, e.request = r ∧
      (∃ o, e.Ends c.config o ∧ ((call.run c T).run (rs, s)).2.2.network.log =
        s.network.log ++ e.entries)

theorem network_of_unbuilt (hne : rs ≠ []) (h : call.builds T rs = false) :
    ((call.run c T).run (rs, s)).2.2.network = s.network := by
  cases hr : call.request c T rs with
  | error e => exact (ends_of_error s hne hr).network
  | ok r =>
    rw [builds_of_request hr] at h
    cases h

theorem handsOver (call : BatchCall) (c : Connection) (T : RecordType κ α) (rs : List α)
    (s : Session) : call.HandsOver c T rs s where
  empty h := by
    subst h
    have he := call.ends_nil c T s
    refine ⟨?_, he.network⟩
    rw [he.outcome]
    cases call.checked T <;> rfl
  large h := by
    have hne : rs ≠ [] := by
      rintro rfl
      cases h
    have hb : call.builds T rs = false := by
      by_contra hb
      obtain ⟨r, hr⟩ := request_of_builds (c := c) (eq_true_of_ne_false hb)
      exact absurd h (Nat.not_lt.mpr (length_le_of_request hr))
    exact ⟨hb, network_of_unbuilt hne hb⟩
  unbuilt := network_of_unbuilt
  built hne hb := by
    obtain ⟨r, hr⟩ := request_of_builds (c := c) hb
    obtain ⟨e, he, ho, hl⟩ := s.network.exists_exchange c.config r
    rw [(ends_of_ok s hne hr).network]
    exact ⟨r, hr, s.network.handed_exchange c.config r, e, he, _, ho, hl⟩

end BatchCall

/-- The clauses of a query, which are built without the network. -/
structure ClauseBuilder (κ : Type) where
  build : Schema.Resolver κ → ExceptT Soql.Error (StateM Session) Soql.Clauses
  quiet : ∀ place, Quiet (build place)

/-- What a client is asked for, with everything it is given. -/
inductive Operation (κ α β : Type) : Type 1 where
  | batch (call : BatchCall) (rs : List α)
  | describe (name : String)
  | invoke {ι : Type} [Json.Serialize ι] (action : String) (inputs : List ι)
  | retrieve (clauses : ClauseBuilder κ)
  | queryRows (row : Json.Decoder β) (q : Soql.Query)

def Work.ended (w : Work β) (s : Session) : Except Error Unit × Network :=
  ((w.run s).1.map fun _ => (), (w.run s).2.network)

theorem Work.RefusesFirst.ended {w : Work β} (h : Work.RefusesFirst w) {s : Session}
    (he : (w.ended s).1 = .error e) (hp : e.isPrecondition) : (w.ended s).2 = s.network :=
  h s e (map_eq_error_iff.mp he) hp

namespace Operation

/-- How an operation has ended: whether it failed, and the network behind it. -/
def ended (c : Connection) (T : RecordType κ α) (s : Session) :
    Operation κ α β → Except Error Unit × Network
  | batch call rs => (((call.run c T).run (rs, s)).1.map fun _ => (),
      ((call.run c T).run (rs, s)).2.2.network)
  | describe name => Work.ended (c.describeTable name) s
  | invoke action inputs => Work.ended (c.invoke action inputs) s
  | retrieve clauses => Work.ended (c.retrieve T clauses.build) s
  | queryRows row q => Work.ended (c.queryRows row q) s

/-- An operation that refuses what it is asked for has handed nothing over, and a call on a batch
hands over one request at the most, in every session. -/
theorem hands_over_accepted_once (c : Connection) (T : RecordType κ α) (s : Session) :
    (∀ (op : Operation κ α β) (e : Error), (op.ended c T s).1 = .error e → e.isPrecondition →
      (op.ended c T s).2 = s.network) ∧
    ∀ (call : BatchCall) (rs : List α), call.HandsOver c T rs s := by
  refine ⟨fun op e he hp => ?_, fun call rs => call.handsOver c T rs s⟩
  cases op with
  | batch call rs => exact BatchCall.refuses_first (map_eq_error_iff.mp he) hp
  | describe name => exact (c.describeTable_refusesFirst name).ended he hp
  | invoke action inputs => exact (c.invoke_refusesFirst action inputs).ended he hp
  | retrieve clauses => exact (c.retrieve_refusesFirst T clauses.quiet).ended he hp
  | queryRows row q => exact (c.queryRows_refusesFirst row q).ended he hp

/-- A session with an org that asks to wait, and would answer later. -/
def busy : Session :=
  let answer := "[\x7b\"id\":\"1\",\"success\":true\x7d,\x7b\"success\":false\x7d]"
  ⟨⟨fun _ => true,
    [.answer ⟨429, [("Retry-After", "1")], []⟩,
      .answer ⟨200, [], Text.utf8Bytes answer.toList⟩], []⟩, [], none⟩

def org : Connection :=
  ⟨"http://org.test", "token", Connection.defaultVersion, {}⟩

def accountUpdate : Operation Nat Row Row :=
  .batch (.save (.update {})) Saving.renamedAccounts

def accountInsert : BatchCall :=
  .save (.insert {})

/-- Accounts without ids cannot be updated, but inserted, and that is not tried again. -/
theorem busy_is_asked_once :
    (accountUpdate.ended org Saving.accountRows busy).1 = .error (.of (.missingRecordId 0)) ∧
      (accountUpdate.ended org Saving.accountRows busy).2 = busy.network ∧
      Saving.renamedAccounts ≠ [] ∧
      accountInsert.builds Saving.accountRows Saving.renamedAccounts = true ∧
      ∃ r, ((accountInsert.run org Saving.accountRows).run
        (Saving.renamedAccounts, busy)).2.2.network.handed = [r] := by
  obtain ⟨hrefused, hcalls⟩ := hands_over_accepted_once (β := Row) org Saving.accountRows busy
  have he : (accountUpdate.ended org Saving.accountRows busy).1 =
      .error (.of (.missingRecordId 0)) := by decide +kernel
  have hne : Saving.renamedAccounts ≠ [] := by decide
  have hb : accountInsert.builds Saving.accountRows Saving.renamedAccounts = true := by
    decide +kernel
  obtain ⟨r, -, hr, -⟩ := (hcalls accountInsert Saving.renamedAccounts).built hne hb
  exact ⟨he, hrefused accountUpdate _ he rfl, hne, hb, r, hr⟩

end Operation

end OrgClient
