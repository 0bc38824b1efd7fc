import Mathlib.Data.List.Basic
import Mathlib.Data.List.Induction
import Mathlib.Data.String.Basic
import OrgClient.Json.Members

namespace OrgClient.Members

set_option autoImplicit true

theorem get?_cons_self (key : String) (v : β) (ms : Members β) :
    Members.get? ((key, v) :: ms) key = some v :=
  List.lookup_cons_self

theorem get?_cons_of_ne (h : name ≠ key) (v : β) (ms : Members β) :
    Members.get? ((key, v) :: ms) name = ms.get? name := by
  rw [get?, List.lookup_cons, beq_false_of_ne h]
  rfl

theorem get?_insert_self (key : String) (v : β) (ms : Members β) :
    (insert key v ms).get? key = some v := by
  induction ms with
  | nil => exact get?_cons_self key v []
  | cons p ms ih =>
    obtain ⟨k, u⟩ := p
    rw [insert]
    split_ifs with hl he
    · exact get?_cons_self key v _
    · exact get?_cons_self key v _
    · exact (get?_cons_of_ne he u _).trans ih

theorem get?_insert_of_ne (h : name ≠ key) (v : β) (ms : Members β) :
    (insert key v ms).get? name = ms.get? name := by
  induction ms with
  | nil => exact get?_cons_of_ne h v []
  | cons p ms ih =>
    obtain ⟨k, u⟩ := p
    rw [insert]
    split_ifs with hl he
    · exact get?_cons_of_ne h v _
    · subst he
      exact (get?_cons_of_ne h v ms).trans (get?_cons_of_ne h u ms).symm
    · by_cases hk : name = k
      · subst hk
        exact (get?_cons_self name u _).trans (get?_cons_self name u ms).symm
      · exact (get?_cons_of_ne hk u _).trans (ih.trans (get?_cons_of_ne hk u ms).symm)

theorem get?_erase_of_ne (h : name ≠ key) (ms : Members β) :
    (ms.erase key).get? name = ms.get? name := by
  induction ms with
  | nil => rfl
  | cons p ms ih =>
    obtain ⟨k, u⟩ := p
    by_cases hk : k = key
    · subst hk
      have he : erase k ((k, u) :: ms) = erase k ms :=
        List.filter_cons_of_neg (by simp)
      rw [he, ih, get?_cons_of_ne h]
    · have he : erase key ((k, u) :: ms) = (k, u) :: erase key ms :=
        List.filter_cons_of_pos (decide_eq_true hk)
      rw [he]
      by_cases hn : name = k
      · subst hn
        exact (get?_cons_self name u _).trans (get?_cons_self name u ms).symm
      · exact (get?_cons_of_ne hn u _).trans (ih.trans (get?_cons_of_ne hn u ms).symm)

theorem get?_erase_self (key : String) (ms : Members β) : (ms.erase key).get? key = none := by
  induction ms with
  | nil => rfl
  | cons p ms ih =>
    obtain ⟨k, u⟩ := p
    by_cases hk : k = key
    · subst hk
      have he : erase k ((k, u) :: ms) = erase k ms :=
        List.filter_cons_of_neg (by simp)
      rw [he, ih]
    · have he : erase key ((k, u) :: ms) = (k, u) :: erase key ms :=
        List.filter_cons_of_pos (decide_eq_true hk)
      rw [he, get?_cons_of_ne (Ne.symm hk), ih]

theorem erase_insert_self (key : String) (v : β) (ms : Members β) :
    (insert key v ms).erase key = ms.erase key := by
  induction ms with
  | nil => simp [insert, erase]
  | cons p ms ih =>
    obtain ⟨k, u⟩ := p
    rw [insert]
    split_ifs with hl he
    · simp [erase]
    · simp [erase, he]
    · simp only [erase, ne_eq, decide_not] at ih ⊢
      rw [List.filter_cons, List.filter_cons, ih]

/-- The keys of members are in increasing order, so that none is there twice. -/
def Ordered (ms : Members β) : Prop :=
  ms.Pairwise fun p q => p.1 < q.1

theorem mem_of_mem_insert {p : String × β} (h : p ∈ insert key v ms) : p = (key, v) ∨ p ∈ ms := by
  induction ms with
  | nil => exact .inl (List.mem_singleton.mp h)
  | cons q ms ih =>
    obtain ⟨k, u⟩ := q
    rw [insert] at h
    split_ifs at h with hl he
    · exact List.mem_cons.mp h
    · rcases List.mem_cons.mp h with h | h
      · exact .inl h
      · exact .inr (List.mem_cons_of_mem _ h)
    · rcases List.mem_cons.mp h with h | h
      · exact .inr (h ▸ List.mem_cons_self)
      · exact (ih h).imp_right (List.mem_cons_of_mem _)

theorem Ordered.insert {ms : Members β} (h : ms.Ordered) (key : String) (v : β) :
    (Members.insert key v ms).Ordered := by
  induction ms with
  | nil => exact List.pairwise_singleton _ _
  | cons q ms ih =>
    obtain ⟨k, u⟩ := q
    obtain ⟨hk, hms⟩ := List.pairwise_cons.mp h
    rw [Members.insert]
    split_ifs with hl he
    · refine List.pairwise_cons.mpr ⟨?_, h⟩
      intro p hp
      rcases List.mem_cons.mp hp with rfl | hp
      · exact hl
      · exact hl.trans (hk p hp)
    · subst he
      exact List.pairwise_cons.mpr ⟨hk, hms⟩
    · refine List.pairwise_cons.mpr ⟨?_, ih hms⟩
      intro p hp
      rcases mem_of_mem_insert hp with rfl | hp
      · exact lt_of_le_of_ne (not_lt.mp hl) (Ne.symm he)
      · exact hk p hp

theorem Ordered.mem_iff {ms : Members β} (h : ms.Ordered) :
    (name, v) ∈ ms ↔ Members.get? ms name = some v := by
  induction ms with
  | nil => exact ⟨nofun, nofun⟩
  | cons q ms ih =>
    obtain ⟨k, u⟩ := q
    obtain ⟨hk, hms⟩ := List.pairwise_cons.mp h
    rw [List.mem_cons]
    by_cases hn : name = k
    · subst hn
      have hnot : (name, v) ∉ ms := fun hm => lt_irrefl name (hk _ hm)
      rw [get?_cons_self]
      simp [hnot, eq_comm]
    · rw [get?_cons_of_ne hn, ← ih hms]
      simp [hn]

theorem ofList_concat (ps : List (String × β)) (p : String × β) :
    ofList (ps ++ [p]) = insert p.1 p.2 (ofList ps) := by
  rw [ofList, List.foldl_append]
  rfl

theorem ordered_ofList (ps : List (String × β)) : (ofList ps).Ordered := by
  induction ps using List.reverseRecOn with
  | nil => exact .nil
  | append_singleton ps p ih =>
    rw [ofList_concat]
    exact ih.insert p.1 p.2

theorem mem_of_mem_ofList {p : String × β} (h : p ∈ ofList ps) : p ∈ ps := by
  induction ps using List.reverseRecOn with
  | nil => exact h
  | append_singleton ps q ih =>
    rw [ofList_concat] at h
    rcases mem_of_mem_insert h with rfl | h
    · exact List.mem_append_right ps List.mem_cons_self
    · exact List.mem_append_left [q] (ih h)

theorem insert_eq_concat {ms : Members β} (h : ∀ p ∈ ms, p.1 < key) (v : β) :
    insert key v ms = ms ++ [(key, v)] := by
  induction ms with
  | nil => rfl
  | cons p ms ih =>
    obtain ⟨k, u⟩ := p
    obtain ⟨hk, hms⟩ := List.forall_mem_cons.mp h
    rw [insert, if_neg (not_lt_of_gt hk), if_neg hk.ne', ih hms, List.cons_append]

/-- Members in the order of their keys stay as they are. -/
theorem Ordered.ofList_eq {ms : Members β} (h : ms.Ordered) : ofList ms = ms := by
  induction ms using List.reverseRecOn with
  | nil => rfl
  | append_singleton ms p ih =>
    obtain ⟨hms, -, hp⟩ := List.pairwise_append.mp h
    rw [ofList_concat, ih hms]
    exact insert_eq_concat (fun q hq => hp q hq p List.mem_cons_self) p.2

/-- Under distinct keys there is what was given under them. -/
theorem get?_ofList {ps : List (String × β)} (h : (ps.map Prod.fst).Nodup) (name : String) :
    (ofList ps).get? name = ps.lookup name := by
  induction ps using List.reverseRecOn with
  | nil => rfl
  | append_singleton ps p ih =>
    rw [List.map_append, List.nodup_append] at h
    rw [ofList_concat, List.lookup_append]
    by_cases hn : name = p.1
    · subst hn
      have hp : ps.lookup p.1 = none := by
        rw [List.lookup_eq_none_iff]
        intro q hq
        have hm := h.2.2 q.1 (List.mem_map_of_mem hq) p.1 (List.mem_map_of_mem List.mem_cons_self)
        exact bne_iff_ne.mpr hm.symm
      rw [get?_insert_self, hp, Option.none_or]
      exact (get?_cons_self p.1 p.2 []).symm
    · have hp : List.lookup name [p] = none := get?_cons_of_ne hn p.2 []
      rw [get?_insert_of_ne hn, ih h.1, hp, Option.or_none]

end OrgClient.Members
