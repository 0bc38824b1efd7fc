import OrgClient.Proofs.Record.Reconcile
import OrgClient.Proofs.Record.Request

namespace OrgClient

open Record
set_option autoImplicit true

namespace Record

/-- The ways in which bodies are made of the records of a batch. -/
inductive BatchKind where
  | insert (allOrNone : Bool)
  | update (options : UpdateOptions)
  | upsert (field : String) (options : UpdateOptions)

namespace BatchKind

def allOrNone : BatchKind → Bool
  | insert allOrNone => allOrNone
  | update o => o.allOrNone
  | upsert _ o => o.allOrNone

def body (T : RecordType κ α) : BatchKind → Nat → α → Except Error (Members Json)
  | insert _ => fun _ => T.body .insert
  | update o => T.updateBody o.mode
  | upsert field o => T.upsertBody o.mode field

def request (T : RecordType κ α) (rs : List α) : BatchKind → Except Error BatchRequest
  | insert allOrNone => T.insertRequest rs allOrNone
  | update o => T.updateRequest rs o
  | upsert field o => T.upsertRequest rs field o

/-- The body that is made of a record, wherever it stands in a batch. -/
def Makes (kind : BatchKind) (T : RecordType κ α) (r : α) (body : Members Json) : Prop :=
  ∀ i, kind.body T i r = .ok body

variable {kind : BatchKind} {T : RecordType κ α} {r : α} {rs : List α} {i : Nat}
  {body : Members Json}

theorem request_eq (kind : BatchKind) (T : RecordType κ α) (rs : List α) :
    kind.request T rs = do
      ensureBatchSize rs.length
      return ⟨kind.allOrNone, ← mapIndexed (kind.body T) 0 rs⟩ := by
  cases kind <;> rfl

theorem upsertBody_place (h : T.upsertBody mode field i r = .ok body) (j : Nat) :
    T.upsertBody mode field j r = .ok body := by
  obtain ⟨b, hb, -⟩ := bind_eq_ok_iff.mp h
  rw [RecordType.upsertBody_of_body hb] at h ⊢
  split at h
  · rename_i hhas
    rw [if_pos hhas]
    exact h
  · rename_i hhas
    rw [if_neg hhas]
    split at h
    · exact h
    · split at h
      · rename_i hname
        exact (if_pos hname).trans h
      · cases h

/-- The place of a record is seen in errors only. -/
theorem makes_of_body (h : kind.body T i r = .ok body) : kind.Makes T r body := by
  intro j
  cases kind with
  | insert _ => exact h
  | update o =>
    exact RecordType.updateBody_eq_ok_iff.mpr (RecordType.updateBody_eq_ok_iff.mp h)
  | upsert field o => exact upsertBody_place h j

theorem body_ne_size (kind : BatchKind) (T : RecordType κ α) (i : Nat) (r : α) (size max : Nat) :
    kind.body T i r ≠ .error (.of (.batchTooLarge size max)) := by
  have hbody (mode : WriteMode) : T.body mode r ≠ .error (.of (.batchTooLarge size max)) := by
    intro h
    obtain ⟨text, caused, he⟩ := RecordType.serialization_of_body_error h
    cases he
  intro h
  cases kind with
  | insert _ => exact hbody _ h
  | update o =>
    cases RecordType.updateBody_eq_error_iff.mp h with
    | unnamed h => cases h
  | upsert field o =>
    change T.upsertBody o.mode field i r = _ at h
    cases hb : T.body o.mode r with
    | error e =>
      rw [RecordType.upsertBody, hb] at h
      cases h
      exact hbody _ hb
    | ok body =>
      rw [RecordType.upsertBody_of_body hb] at h
      split at h
      · cases h
      · split at h
        · cases h
        · split at h <;> cases h

theorem bodies_of_request {q : BatchRequest} (h : kind.request T rs = .ok q) :
    List.Forall₂ (kind.Makes T) rs q.records := by
  rw [request_eq] at h
  obtain ⟨-, bodies, hb, rfl⟩ := batch_eq_ok_iff.mp h
  exact (forall₂_of_mapIndexed hb).imp fun _ _ ⟨_, h⟩ => makes_of_body h

theorem request_ok_iff (kind : BatchKind) (T : RecordType κ α) (rs : List α) :
    (∃ q, kind.request T rs = .ok q) ↔
      rs.length ≤ maxBatchSize ∧ ∀ r ∈ rs, ∃ body, kind.Makes T r body := by
  rw [request_eq]
  exact batch_ok_iff fun i r => exists_congr fun body => ⟨makes_of_body, fun h => h i⟩

theorem request_ne_size (hl : rs.length ≤ maxBatchSize) (size max : Nat) :
    kind.request T rs ≠ .error (.of (.batchTooLarge size max)) := by
  intro h
  rw [request_eq, batch_eq_error_iff fun _ _ _ => Iff.rfl] at h
  cases h with
  | size hl' => exact absurd hl' (Nat.not_lt.mpr hl)
  | record _ _ he => exact kind.body_ne_size T _ _ size max he

/-- The chunks of a list and the requests that are made of them. -/
def Requested (kind : BatchKind) (T : RecordType κ α) (chunks : List (List α))
    (qs : List BatchRequest) : Prop :=
  List.Forall₂ (fun chunk q => kind.request T chunk = .ok q) chunks qs

variable {chunks : List (List α)} {qs : List BatchRequest}

/-- The bodies of the chunks, put together, are the bodies of all records in order. -/
theorem Requested.bodies (h : kind.Requested T chunks qs) :
    List.Forall₂ (kind.Makes T) chunks.flatten (qs.map BatchRequest.records).flatten := by
  have hb : List.Forall₂ (List.Forall₂ (kind.Makes T)) chunks (qs.map BatchRequest.records) :=
    List.forall₂_map_right_iff.mpr (List.Forall₂.imp (fun _ _ => bodies_of_request) h)
  exact List.rel_flatten hb

/-- Whether all chunks have requests does not depend on how the records are cut. -/
theorem requested_iff (hl : ∀ chunk ∈ chunks, chunk.length ≤ maxBatchSize) :
    (∃ qs, kind.Requested T chunks qs) ↔ ∀ r ∈ chunks.flatten, ∃ body, kind.Makes T r body := by
  induction chunks with
  | nil => exact iff_of_true ⟨[], .nil⟩ fun _ hr => absurd hr List.not_mem_nil
  | cons chunk chunks ih =>
    obtain ⟨hl, hls⟩ := List.forall_mem_cons.mp hl
    rw [List.flatten_cons, List.forall_mem_append, ← ih hls]
    constructor
    · rintro ⟨_, h⟩
      cases h with
      | cons hq h => exact ⟨((kind.request_ok_iff T chunk).mp ⟨_, hq⟩).2, _, h⟩
    · rintro ⟨hr, qs, h⟩
      obtain ⟨q, hq⟩ := (kind.request_ok_iff T chunk).mpr ⟨hl, hr⟩
      exact ⟨q :: qs, .cons hq h⟩

end BatchKind

end Record

namespace RecordType

/-- Takes the outcomes of one chunk into its records; the other chunks stay as they are. -/
def reconcileChunk (T : RecordType κ α) (takesId : Bool) (results : List (List SaveResult))
    (chunks : List (List α)) (k : Nat) : Except Error (List (List α)) := do
  return chunks.set k (← T.reconcile takesId (chunks.getD k []) (results.getD k []))

/-- The chunks of which some have taken in their outcomes. -/
def afterChunks (T : RecordType κ α) (takesId : Bool) (results : List (List SaveResult))
    (chunks : List (List α)) (done : List Nat) : List (List α) :=
  chunks.mapIdx fun k chunk =>
    if k ∈ done then List.zipWith (T.reconcileOne takesId) chunk (results.getD k []) else chunk

variable {T : RecordType κ α} {chunks : List (List α)} {results : List (List SaveResult)}

/-- A chunk that has not taken in its outcomes does so, whatever the others did. -/
theorem reconcileChunk_afterChunks (hk : k ∉ done)
    (hl : (chunks.getD k []).length = (results.getD k []).length) :
    T.reconcileChunk takesId results (T.afterChunks takesId results chunks done) k =
      .ok (T.afterChunks takesId results chunks (k :: done)) := by
  have hget : (T.afterChunks takesId results chunks done).getD k [] = chunks.getD k [] := by
    simp [afterChunks, List.getD_eq_getElem?_getD, hk]
  rw [reconcileChunk, hget, reconcile_eq_ok_iff.mpr ⟨hl, rfl⟩, ok_bind]
  refine congrArg Except.ok (List.ext_getElem? fun j => ?_)
  rw [afterChunks, afterChunks, List.getElem?_set, List.getElem?_mapIdx, List.getElem?_mapIdx,
    List.length_mapIdx]
  by_cases hj : k = j
  · subst hj
    cases hc : chunks[k]? with
    | none => simp [List.getElem?_eq_none_iff.mp hc]
    | some chunk =>
      obtain ⟨hlt, rfl⟩ := List.getElem?_eq_some_iff.mp hc
      simp [hlt, List.getD_eq_getElem?_getD]
  · simp [hj, Ne.symm hj]

/-- Chunks with outcomes for each of their records. -/
def Aligned (chunks : List (List α)) (results : List (List SaveResult)) : Prop :=
  List.Forall₂ (fun chunk rs => chunk.length = rs.length) chunks results

theorem Aligned.length_getD (h : Aligned chunks results) (k : Nat) :
    (chunks.getD k []).length = (results.getD k []).length := by
  induction h generalizing k with
  | nil => rfl
  | cons hl _ ih =>
    cases k with
    | zero => exact hl
    | succ k => exact ih k

/-- Takes the outcomes of the chunks into their records, one chunk after the other. -/
def reconcileChunks (T : RecordType κ α) (takesId : Bool) (results : List (List SaveResult))
    (order : List Nat) (chunks : List (List α)) : Except Error (List (List α)) :=
  order.foldlM (T.reconcileChunk takesId results) chunks

theorem reconcileChunks_afterChunks (h : Aligned chunks results) (hn : order.Nodup)
    (hd : order.Disjoint done) :
    T.reconcileChunks takesId results order (T.afterChunks takesId results chunks done) =
      .ok (T.afterChunks takesId results chunks (order.reverse ++ done)) := by
  induction order generalizing done with
  | nil => rfl
  | cons k order ih =>
    obtain ⟨hk, hn⟩ := List.nodup_cons.mp hn
    obtain ⟨hkd, hd⟩ := List.disjoint_cons_left.mp hd
    have hd' : order.Disjoint (k :: done) := List.disjoint_cons_right.mpr ⟨hk, hd⟩
    rw [reconcileChunks, List.foldlM_cons, reconcileChunk_afterChunks hkd (h.length_getD k),
      ok_bind]
    have hr := ih hn hd'
    rw [reconcileChunks] at hr
    rw [hr, List.reverse_cons, List.append_assoc]
    rfl

/-- Once all chunks have taken in their outcomes, each record has taken in its own. -/
theorem afterChunks_all (h : Aligned chunks results) (hd : ∀ k < chunks.length, k ∈ done) :
    T.afterChunks takesId results chunks done =
      List.zipWith (List.zipWith (T.reconcileOne takesId)) chunks results := by
  refine List.ext_getElem? fun k => ?_
  rw [afterChunks, List.getElem?_mapIdx, List.getElem?_zipWith]
  cases hc : chunks[k]? with
  | none => rfl
  | some chunk =>
    obtain ⟨hlt, -⟩ := List.getElem?_eq_some_iff.mp hc
    have hr : results[k]? = some (results.getD k []) := by
      have hlt' : k < results.length := h.length_eq ▸ hlt
      rw [List.getD_eq_getElem?_getD, List.getElem?_eq_getElem hlt']
      rfl
    rw [hr, Option.map_some, if_pos (hd k hlt)]

theorem flatten_zipWith {f : α → SaveResult → β} (h : Aligned chunks results) :
    (List.zipWith (List.zipWith f) chunks results).flatten =
      List.zipWith f chunks.flatten results.flatten := by
  induction h with
  | nil => rfl
  | cons hl _ ih =>
    rw [List.zipWith_cons_cons, List.flatten_cons, List.flatten_cons, List.flatten_cons, ih,
      List.zipWith_append hl]

/-- Chunks act as one batch, which may be of any size. -/
structure ActAsOne (T : RecordType κ α) (chunks : List (List α))
    (results : List (List SaveResult)) : Prop where
  sized : ∀ kind : BatchKind, ∀ chunk ∈ chunks, ∀ size max,
    kind.request T chunk ≠ .error (.of (.batchTooLarge size max))
  requested_iff : ∀ kind : BatchKind, (∃ qs, kind.Requested T chunks qs) ↔
    ∀ r ∈ chunks.flatten, ∃ body, kind.Makes T r body
  bodies : ∀ (kind : BatchKind) qs, kind.Requested T chunks qs →
    List.Forall₂ (kind.Makes T) chunks.flatten (qs.map BatchRequest.records).flatten
  reconciled : ∀ takesId order, order.Perm (List.range chunks.length) →
    ∃ after, T.reconcileChunks takesId results order chunks = .ok after ∧
      after.flatten = List.zipWith (T.reconcileOne takesId) chunks.flatten results.flatten

/-- However records are cut into chunks that are not too large, no chunk is refused for its size,
the chunks together have the bodies of all records in order, and in whatever order the chunks take
in their outcomes, in the end each record has taken in its own. -/
theorem chunks_act_as_one (T : RecordType κ α)
    (hl : ∀ chunk ∈ chunks, chunk.length ≤ maxBatchSize) (ha : Aligned chunks results) :
    T.ActAsOne chunks results where
  sized kind chunk hc := BatchKind.request_ne_size (hl chunk hc)
  requested_iff kind := BatchKind.requested_iff hl
  bodies kind qs h := h.bodies
  reconciled takesId order hp := by
    have hn : order.Nodup := hp.nodup_iff.mpr List.nodup_range
    have hall : ∀ k < chunks.length, k ∈ order.reverse ++ [] := by
      intro k hk
      simpa using hp.mem_iff.mpr (List.mem_range.mpr hk)
    have hnone : T.afterChunks takesId results chunks [] = chunks :=
      List.ext_getElem? fun k => by simp [afterChunks]
    have hr : T.reconcileChunks takesId results order (T.afterChunks takesId results chunks []) =
        .ok (T.afterChunks takesId results chunks (order.reverse ++ [])) :=
      reconcileChunks_afterChunks ha hn (List.disjoint_nil_right order)
    rw [hnone, afterChunks_all ha hall] at hr
    exact ⟨_, hr, flatten_zipWith ha⟩

/-- Three accounts with new names, in two chunks. -/
def renamedChunks : List (List Row) :=
  [["Acme", "Globex"], ["Initech"]].map fun names =>
    names.map fun name => ⟨.obj [("Name", .str name)], .ofList ["name"]⟩

/-- The second account is refused. -/
def renamedOutcomes : List (List SaveResult) :=
  [[⟨some "1", true, [], [], none⟩, ⟨none, false, [], [], none⟩],
    [⟨some "3", true, [], [], none⟩]]

theorem renamedChunks_act_as_one :
    (∀ chunk ∈ renamedChunks, chunk.length ≤ maxBatchSize) ∧
      Aligned renamedChunks renamedOutcomes ∧
      ∃ after, accountType.reconcileChunks true renamedOutcomes [1, 0] renamedChunks = .ok after ∧
        after.flatten.map (fun r => (r.id?, r.modified.isEmpty)) =
          [(some "1", true), (none, false), (some "3", true)] := by
  have hl : ∀ chunk ∈ renamedChunks, chunk.length ≤ maxBatchSize := by decide
  have ha : Aligned renamedChunks renamedOutcomes := .cons rfl (.cons rfl .nil)
  obtain ⟨after, hr, hafter⟩ :=
    (chunks_act_as_one accountType hl ha).reconciled true [1, 0] (List.Perm.swap 0 1 [])
  exact ⟨hl, ha, after, hr, by rw [hafter]; decide⟩

end RecordType

end OrgClient
