import OrgClient.Client.Save
import OrgClient.Proofs.Client.Call
import OrgClient.Proofs.Record.Reconcile

namespace OrgClient

open Http (Network Request Session)
open Record
set_option autoImplicit true

namespace BatchWork

/-- How work on a batch ends. If it fails, the records are what they were. -/
structure Ends (x : BatchWork α β) (rs : List α) (s : Session) (o : Except Error (β × List α))
    (n : Network) : Prop where
  outcome : (x.run (rs, s)).1 = o.map Prod.fst
  records : (x.run (rs, s)).2.1 = (o.toOption.map Prod.snd).getD rs
  network : (x.run (rs, s)).2.2.network = n

theorem run_ofWork (work : Work β) (rs : List α) (s : Session) :
    (ofWork work).run (rs, s) = ((work.run s).1, (rs, (work.run s).2)) :=
  rfl

namespace Ends

variable {x : BatchWork α β} {s : Session}

theorem records_of_error (h : Ends x rs s o n) (he : (x.run (rs, s)).1 = .error e) :
    (x.run (rs, s)).2.1 = rs := by
  rw [h.outcome] at he
  rw [h.records, map_eq_error_iff.mp he]
  rfl

theorem eq_of_ok (h : Ends x rs s o n) (hb : (x.run (rs, s)).1 = .ok b) :
    o = .ok (b, (x.run (rs, s)).2.1) := by
  rw [h.outcome] at hb
  obtain ⟨⟨b', rs'⟩, ho, hb⟩ := map_eq_ok_iff.mp hb
  cases hb
  rw [h.records, ho]
  rfl

theorem pure (b : β) (rs : List α) (s : Session) :
    Ends (Pure.pure b) rs s (.ok (b, rs)) s.network :=
  ⟨rfl, rfl, rfl⟩

theorem records_bind {f : List α → BatchWork α β} (h : Ends (f rs) rs s o n) :
    Ends (BatchWork.records >>= f) rs s o n :=
  ⟨h.outcome, h.records, h.network⟩

theorem except_error {x : Except Error β} {f : β → BatchWork α γ} (h : x = .error e) :
    Ends (liftM x >>= f) rs s (.error e) s.network := by
  subst h
  exact ⟨rfl, rfl, rfl⟩

theorem except_ok {x : Except Error β} {f : β → BatchWork α γ} (h : x = .ok b)
    (hf : Ends (f b) rs s o n) :
    Ends (liftM x >>= f) rs s o n := by
  subst h
  exact ⟨hf.outcome, hf.records, hf.network⟩

theorem ofWork_error {work : Work β} {f : β → BatchWork α γ}
    (h : work.run s = (.error e, s')) :
    Ends (ofWork work >>= f) rs s (.error e) s'.network := by
  have hw : (ofWork work).run (rs, s) = (.error e, (rs, s')) := by
    rw [run_ofWork, h]
  refine ⟨?_, ?_, ?_⟩ <;> rw [run_bind_state, hw] <;> rfl

theorem ofWork_ok {work : Work β} {f : β → BatchWork α γ} (h : work.run s = (.ok b, s'))
    (hf : Ends (f b) rs s' o n) : Ends (ofWork work >>= f) rs s o n := by
  have hw : (ofWork work).run (rs, s) = (.ok b, (rs, s')) := by
    rw [run_ofWork, h]
  refine ⟨?_, ?_, ?_⟩ <;> rw [run_bind_state, hw]
  · exact hf.outcome
  · exact hf.records
  · exact hf.network

theorem note_bind {f : Unit → BatchWork α β}
    (h : ∀ s' : Session, s'.network = s.network → Ends (f ()) rs s' o n) :
    Ends (ofWork (Work.note level message data) >>= f) rs s o n :=
  ofWork_ok rfl (h ((Http.note level message data).run s).2 rfl)

theorem setRecords_pure (b : β) (rs rs' : List α) (s : Session) :
    Ends (setRecords rs' >>= fun _ => Pure.pure b) rs s (.ok (b, rs')) s.network :=
  ⟨rfl, rfl, rfl⟩

end Ends

end BatchWork

namespace RecordType

/-- The outcomes of a save, and the records with the outcomes taken in. -/
def taken (T : RecordType κ α) (takesId : Bool) (rs : List α) (results : List SaveResult) :
    Except Error (List SaveResult × List α) := do
  return (results, ← T.reconcile takesId rs results)

theorem taken_of_error {T : RecordType κ α} (h : T.reconcile takesId rs results = .error e) :
    T.taken takesId rs results = .error e := by
  rw [taken, h]
  rfl

theorem taken_of_ok {T : RecordType κ α} (h : T.reconcile takesId rs results = .ok saved) :
    T.taken takesId rs results = .ok (results, saved) := by
  rw [taken, h]
  rfl

end RecordType

namespace Connection

open BatchWork (Ends ofWork run_ofWork)

def noteUnsavedAt (T : RecordType κ α) (index : Nat) : Work Unit :=
  Work.note .warn "Record was not saved" [("sobject", .text T.name), ("index", .count index)]

theorem run_noteUnsaved (T : RecordType κ α) (results : List SaveResult) (s : Session) :
    ∃ s', (noteUnsaved T results).run s = (.ok (), s') ∧ s'.network = s.network := by
  change ∃ s', ((RecordType.unsaved results).forM (noteUnsavedAt T)).run s = _ ∧ _
  induction RecordType.unsaved results generalizing s with
  | nil => exact ⟨s, rfl, rfl⟩
  | cons i is ih =>
    obtain ⟨s', hr, hn⟩ := ih ((noteUnsavedAt T i).run s).2
    refine ⟨s', ?_, hn⟩
    exact (run_bind_state (noteUnsavedAt T i) (fun _ => is.forM (noteUnsavedAt T)) s).trans hr

def batchRequest (c : Connection) (method : Http.Method) (path : String) (q : BatchRequest) :
    Request :=
  (c.request method (c.url (c.restUrl path))).json q.toJson

/-- A batch that is sent ends with the outcomes that are read from the answer, if they fit it. -/
theorem submit_ends (c : Connection) (T : RecordType κ α) (method : Http.Method) (path : String)
    (q : BatchRequest) (takesId : Bool) (rs : List α) (s : Session) :
    Ends (c.submit T method path q takesId) rs s
      ((c.asked (.list SaveResult.decode) (c.batchRequest method path q) s.network).mapError
        Error.ofHttp >>= T.taken takesId rs)
      (s.network.exchange c.config (c.batchRequest method path q)).2 := by
  obtain ⟨ho, hn⟩ := c.sendJson_run (.list SaveResult.decode) (c.batchRequest method path q) s
  rw [← ho, ← hn]
  let call := c.sendJson (.list SaveResult.decode) (c.batchRequest method path q)
  have hs : c.restSubmit method (.list SaveResult.decode) path q.toJson = call := rfl
  have hr : (Work.ofCall (c.restSubmit method (.list SaveResult.decode) path q.toJson)).run s =
      ((call.run s).1.mapError Error.ofHttp, (call.run s).2) := by
    rw [Work.run_ofCall, hs]
  unfold submit
  rcases hc : call.run s with ⟨e | results, s'⟩
  · rw [hc] at hr
    exact .ofWork_error hr
  · rw [hc] at hr
    refine .ofWork_ok hr (.records_bind ?_)
    change Ends _ _ _ (T.taken takesId rs results) _
    cases ht : T.reconcile takesId rs results with
    | error e =>
      rw [RecordType.taken_of_error ht]
      exact .except_error rfl
    | ok saved =>
      obtain ⟨s'', hu, hn⟩ := run_noteUnsaved T results s'
      rw [RecordType.taken_of_ok ht]
      refine .except_ok rfl (.ofWork_ok hu ?_)
      rw [← hn]
      exact .setRecords_pure results rs saved s''

theorem delete_ends (c : Connection) (ids : String) (allOrNone : Bool) (rs : List α) (s : Session) :
    Ends (ofWork (Work.ofCall
        (c.sendJson (.list DeleteResult.decode) (c.deleteRequest ids allOrNone)))) rs s
      (((c.asked (.list DeleteResult.decode) (c.deleteRequest ids allOrNone)
        s.network).mapError Error.ofHttp).map fun results => (results, rs))
      (s.network.exchange c.config (c.deleteRequest ids allOrNone)).2 := by
  obtain ⟨ho, hn⟩ := c.sendJson_run (.list DeleteResult.decode) (c.deleteRequest ids allOrNone) s
  rw [← ho, ← hn]
  refine ⟨?_, ?_, ?_⟩ <;> rw [run_ofWork, Work.run_ofCall]
  · cases ((c.sendJson _ _).run s).1 <;> rfl
  · cases ((c.sendJson _ _).run s).1 <;> rfl

section Batch

variable (c : Connection) (T : RecordType κ α) (build : List α → Except Error BatchRequest)
  (message : String) (data : List (String × Http.Datum)) (method : Http.Method) (path : String)
  (takesId : Bool)

/-- Saving the records of a batch: an empty batch is not sent, and others are once there is a
request for them. -/
def save : BatchWork α (List SaveResult) := do
  let rs ← BatchWork.records
  if rs.isEmpty then return []
  let q ← build rs
  BatchWork.ofWork (Work.note .debug message data)
  c.submit T method path q takesId

theorem save_ends_nil (s : Session) :
    Ends (c.save T build message data method path takesId) [] s (.ok ([], [])) s.network :=
  ⟨rfl, rfl, rfl⟩

variable {c T build message data method path takesId}

theorem save_ends_of_error {rs : List α} (hne : rs ≠ []) (h : build rs = .error e)
    (s : Session) :
    Ends (c.save T build message data method path takesId) rs s (.error e) s.network := by
  refine .records_bind ?_
  rw [if_neg (mt List.isEmpty_iff.mp hne)]
  exact .except_error h

theorem save_ends_of_ok {rs : List α} (hne : rs ≠ []) (h : build rs = .ok q) (s : Session) :
    Ends (c.save T build message data method path takesId) rs s
      ((c.asked (.list SaveResult.decode) (c.batchRequest method path q) s.network).mapError
        Error.ofHttp >>= T.taken takesId rs)
      (s.network.exchange c.config (c.batchRequest method path q)).2 := by
  refine .records_bind ?_
  rw [if_neg (mt List.isEmpty_iff.mp hne)]
  refine .except_ok h (.note_bind fun s' hn => ?_)
  rw [← hn]
  exact c.submit_ends T method path q takesId rs s'

end Batch

end Connection

inductive Saving where
  | insert (o : InsertOptions)
  | update (o : UpdateOptions)
  | upsert (key : String) (o : UpdateOptions)

namespace Saving

open BatchWork (Ends)
open Connection (batchPath)

def run (c : Connection) (T : RecordType κ α) : Saving → BatchWork α (List SaveResult)
  | .insert o => c.insert T o
  | .update o => c.update T o
  | .upsert key o => c.upsert T key o

def takesId : Saving → Bool
  | .insert o => o.setId
  | .update _ => false
  | .upsert _ _ => true

def method : Saving → Http.Method
  | .insert _ => .post
  | .update _ | .upsert _ _ => .patch

/-- The path that a save is sent to. An upsert has one only if its key identifies records. -/
def path (T : RecordType κ α) : Saving → Except Error String
  | .insert _ | .update _ => .ok batchPath
  | .upsert key _ => do return batchPath ++ "/" ++ T.name ++ "/" ++ (← T.externalIdField key)

/-- The bodies that a save makes of records. -/
def bodies (T : RecordType κ α) (rs : List α) : Saving → Except Error BatchRequest
  | .insert o => T.insertRequest rs o.allOrNone
  | .update o => T.updateRequest rs o
  | .upsert key o => do T.upsertRequest rs (← T.externalIdField key) o

/-- The request that a save sends for records. -/
def request (s : Saving) (c : Connection) (T : RecordType κ α) (rs : List α) :
    Except Error Request := do
  let path ← s.path T
  return c.batchRequest s.method path (← s.bodies T rs)

/-- What a save makes of the answer to its request. -/
def outcome (s : Saving) (c : Connection) (T : RecordType κ α) (rs : List α) (r : Request)
    (n : Network) : Except Error (List SaveResult × List α) :=
  (c.asked (.list SaveResult.decode) r n).mapError Error.ofHttp >>= T.taken s.takesId rs

variable (s : Saving) (c : Connection) (T : RecordType κ α) (session : Session)

/-- A save of no records sends nothing. -/
theorem ends_nil :
    Ends (s.run c T) [] session ((s.path T).map fun _ => ([], [])) session.network := by
  cases s with
  | insert o => exact c.save_ends_nil ..
  | update o => exact c.save_ends_nil ..
  | upsert key o =>
    cases h : T.externalIdField key with
    | error e =>
      rw [path, h]
      exact .except_error h
    | ok field =>
      rw [path, h]
      exact .except_ok h (c.save_ends_nil ..)

variable {s c T}

/-- A save for which there is no request sends nothing. -/
theorem ends_of_error {rs : List α} (hne : rs ≠ []) (h : s.request c T rs = .error e) :
    Ends (s.run c T) rs session (.error e) session.network := by
  rcases bind_eq_error_iff.mp h with hp | ⟨p, hp, h⟩
  · cases s with
    | insert o => cases hp
    | update o => cases hp
    | upsert key o =>
      rcases bind_eq_error_iff.mp hp with hf | ⟨field, -, hp⟩
      · exact .except_error hf
      · cases hp
  · rcases bind_eq_error_iff.mp h with hq | ⟨q, -, h⟩
    · cases s with
      | insert o => exact Connection.save_ends_of_error hne hq session
      | update o => exact Connection.save_ends_of_error hne hq session
      | upsert key o =>
        obtain ⟨field, hf, -⟩ := bind_eq_ok_iff.mp hp
        rw [bodies, hf] at hq
        exact .except_ok hf (Connection.save_ends_of_error hne hq session)
    · cases h

/-- A save for which there is a request sends it, and nothing else. -/
theorem ends_of_ok {rs : List α} (hne : rs ≠ []) (h : s.request c T rs = .ok r) :
    Ends (s.run c T) rs session (s.outcome c T rs r session.network)
      (session.network.exchange c.config r).2 := by
  obtain ⟨p, hp, h⟩ := bind_eq_ok_iff.mp h
  obtain ⟨q, hq, h⟩ := bind_eq_ok_iff.mp h
  cases h
  cases s with
  | insert o =>
    cases hp
    exact Connection.save_ends_of_ok hne hq session
  | update o =>
    cases hp
    exact Connection.save_ends_of_ok hne hq session
  | upsert key o =>
    obtain ⟨field, hf, hp⟩ := bind_eq_ok_iff.mp hp
    cases hp
    rw [bodies, hf] at hq
    exact .except_ok hf (Connection.save_ends_of_ok hne hq session)

variable {rs : List α} {session : Session}

/-- A save that fails leaves the records alone. -/
theorem records_of_error (h : ((s.run c T).run (rs, session)).1 = .error e) :
    ((s.run c T).run (rs, session)).2.1 = rs := by
  by_cases hne : rs = []
  · subst hne
    exact (s.ends_nil c T session).records_of_error h
  · cases hr : s.request c T rs with
    | error e' => exact (ends_of_error session hne hr).records_of_error h
    | ok r => exact (ends_of_ok session hne hr).records_of_error h

/-- A save that gives results had bodies for the records, and has taken the results into them. -/
theorem reconcile_of_ok (h : ((s.run c T).run (rs, session)).1 = .ok results) :
    T.reconcile s.takesId rs results = .ok ((s.run c T).run (rs, session)).2.1 ∧
      (rs = [] ∨ ∃ q, s.bodies T rs = .ok q) := by
  by_cases hne : rs = []
  · subst hne
    have ho := (s.ends_nil c T session).eq_of_ok h
    obtain ⟨path, -, hp⟩ := map_eq_ok_iff.mp ho
    obtain ⟨hr, hrs⟩ := Prod.mk.inj hp
    rw [← hr, ← hrs]
    exact ⟨rfl, .inl rfl⟩
  · cases hr : s.request c T rs with
    | error e => cases (ends_of_error session hne hr).eq_of_ok h
    | ok r =>
      obtain ⟨answered, -, ht⟩ := bind_eq_ok_iff.mp ((ends_of_ok session hne hr).eq_of_ok h)
      obtain ⟨rs', hrs', ht⟩ := bind_eq_ok_iff.mp ht
      obtain ⟨hr', hrs⟩ := Prod.mk.inj (Except.ok.inj ht)
      obtain ⟨path, -, hr⟩ := bind_eq_ok_iff.mp hr
      obtain ⟨q, hq, -⟩ := bind_eq_ok_iff.mp hr
      rw [← hr', ← hrs]
      exact ⟨hrs', .inr ⟨q, hq⟩⟩

theorem length_records (s : Saving) (c : Connection) (T : RecordType κ α) (rs : List α)
    (session : Session) : ((s.run c T).run (rs, session)).2.1.length = rs.length := by
  cases h : ((s.run c T).run (rs, session)).1 with
  | error e => rw [records_of_error h]
  | ok results =>
    obtain ⟨hl, hr⟩ := reconcile_eq_ok_iff.mp (reconcile_of_ok h).1
    rw [hr, List.length_zipWith, ← hl, Nat.min_self]

end Saving

/-- A call on a batch of records. -/
inductive BatchCall where
  | save (s : Saving)
  | delete (allOrNone : Bool)

namespace BatchCall

open BatchWork (Ends)

def Result : BatchCall → Type
  | .save _ => SaveResult
  | .delete _ => DeleteResult

def run (c : Connection) (T : RecordType κ α) : (call : BatchCall) → BatchWork α (List call.Result)
  | .save s => s.run c T
  | .delete allOrNone => c.delete T allOrNone

/-- What is checked of a call before its batch is looked at. -/
def checked (T : RecordType κ α) : BatchCall → Except Error Unit
  | .save s => (s.path T).map fun _ => ()
  | .delete _ => .ok ()

def request (c : Connection) (T : RecordType κ α) (rs : List α) : BatchCall → Except Error Request
  | .save s => s.request c T rs
  | .delete allOrNone => (T.deleteIds rs).map fun ids => c.deleteRequest ids allOrNone

def outcome (c : Connection) (T : RecordType κ α) (rs : List α) (r : Request) (n : Network) :
    (call : BatchCall) → Except Error (List call.Result × List α)
  | .save s => s.outcome c T rs r n
  | .delete _ =>
    ((c.asked (.list DeleteResult.decode) r n).mapError Error.ofHttp).map fun results =>
      (results, rs)

theorem ends_nil (call : BatchCall) (c : Connection) (T : RecordType κ α) (session : Session) :
    Ends (call.run c T) [] session ((call.checked T).map fun _ => ([], [])) session.network := by
  cases call with
  | save s =>
    have h := s.ends_nil c T session
    rw [checked]
    cases hp : s.path T with
    | error e =>
      rw [hp] at h
      exact h
    | ok path =>
      rw [hp] at h
      exact h
  | delete allOrNone => exact ⟨rfl, rfl, rfl⟩

variable {call : BatchCall} {c : Connection} {T : RecordType κ α} (session : Session)

theorem ends_of_error {rs : List α} (hne : rs ≠ []) (h : call.request c T rs = .error e) :
    Ends (call.run c T) rs session (.error e) session.network := by
  cases call with
  | save s => exact Saving.ends_of_error session hne h
  | delete allOrNone =>
    cases hi : T.deleteIds rs with
    | error e' =>
      rw [request, hi] at h
      cases h
      refine .records_bind ?_
      rw [if_neg (mt List.isEmpty_iff.mp hne)]
      exact .except_error hi
    | ok ids =>
      rw [request, hi] at h
      cases h

theorem ends_of_ok {rs : List α} (hne : rs ≠ []) (h : call.request c T rs = .ok r) :
    Ends (call.run c T) rs session (call.outcome c T rs r session.network)
      (session.network.exchange c.config r).2 := by
  cases call with
  | save s => exact Saving.ends_of_ok session hne h
  | delete allOrNone =>
    cases hi : T.deleteIds rs with
    | error e =>
      rw [request, hi] at h
      cases h
    | ok ids =>
      rw [request, hi] at h
      cases h
      refine .records_bind ?_
      rw [if_neg (mt List.isEmpty_iff.mp hne)]
      refine .except_ok hi (.note_bind fun s' hn => ?_)
      rw [← hn]
      exact c.delete_ends ids allOrNone rs s'

end BatchCall

end OrgClient
