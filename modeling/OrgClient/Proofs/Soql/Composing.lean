import OrgClient.Proofs.Outcome
import OrgClient.Soql.Compose

namespace OrgClient.Soql

open Text
set_option autoImplicit true

theorem mem_firstOccurrences (h : s ∈ firstOccurrences ss) : s ∈ ss := by
  induction ss with
  | nil => exact h
  | cons t ss ih =>
    rw [firstOccurrences, List.mem_cons, List.mem_filter] at h
    rcases h with rfl | h
    · exact List.mem_cons_self
    · exact List.mem_cons_of_mem _ (ih h.1)

theorem firstOccurrences_ne_nil (h : ss ≠ []) : firstOccurrences ss ≠ [] := by
  cases ss with
  | nil => exact absurd rfl h
  | cons s ss => exact List.cons_ne_nil _ _

theorem FieldRef.renderAll_eq_map (fs : List FieldRef) : renderAll fs = fs.map render := by
  induction fs with
  | nil => rfl
  | cons f fs ih => rw [renderAll, ih, List.map_cons]

def directionText : Option Direction → String
  | none => ""
  | some .ascending => " ASC"
  | some .descending => " DESC"

def nullsText : Option Nulls → String
  | none => ""
  | some .first => " NULLS FIRST"
  | some .last => " NULLS LAST"

theorem Ordering.render_eq (o : Ordering) :
    o.render = o.field.render ++ directionText o.direction ++ nullsText o.nulls :=
  rfl

def boundText (word : String) : Option Nat → String
  | none => ""
  | some n => word ++ Number.natText n

def statisticsText : Option Statistics → String
  | none => ""
  | some s => " UPDATE " ++ s.text

namespace Clauses

def orderText (c : Clauses) : String :=
  if c.order.isEmpty then "" else " ORDER BY " ++ ", ".intercalate (c.order.map Ordering.render)

def purposesText (c : Clauses) : String :=
  if c.purposes.isEmpty then "" else " FOR " ++ " ".intercalate c.purposeTexts

theorem tail_eq (c : Clauses) :
    c.tail = c.orderText ++ boundText " LIMIT " c.limit ++ boundText " OFFSET " c.offset
      ++ c.purposesText ++ statisticsText c.statistics :=
  rfl

/-- What stands in a query for its condition on rows. -/
def filterText (c : Clauses) : Except Error String :=
  match c.filter with
  | none => .ok ""
  | some condition => do return " WHERE " ++ (← condition.render)

def groupingText (c : Clauses) : Except Error String :=
  match c.grouping with
  | none => .ok ""
  | some g => do return " GROUP BY " ++ (← g.render)

end Clauses

/-- A query with columns and a table is put together from the texts of its parts. -/
theorem Query.compose_eq (q : Query) :
    q.compose =
      if q.clauses.select.isEmpty then .error .missingSelectFields
      else if isBlankText q.target then .error .missingFromTarget
      else do
        let filter ← q.clauses.filterText
        let grouping ← q.clauses.groupingText
        return q.clauses.assemble (trimBlank q.target) filter grouping := by
  obtain ⟨target, select, filter, grouping, order, limit, offset, purposes, statistics⟩ := q
  rw [Query.compose]
  cases filter <;> cases grouping <;>
    simp only [Clauses.filterText, Clauses.groupingText, bind_assoc, pure_bind] <;> rfl

theorem Query.compose_eq_ok_iff {q : Query} :
    q.compose = .ok text ↔ q.clauses.select ≠ [] ∧ ¬isBlankText q.target = true ∧
      ∃ filter grouping, q.clauses.filterText = .ok filter ∧
        q.clauses.groupingText = .ok grouping ∧
        text = q.clauses.assemble (trimBlank q.target) filter grouping := by
  rw [compose_eq]
  constructor
  · intro h
    split at h
    · cases h
    · rename_i hs
      split at h
      · cases h
      · rename_i ht
        obtain ⟨filter, hf, h⟩ := bind_eq_ok_iff.mp h
        obtain ⟨grouping, hg, h⟩ := bind_eq_ok_iff.mp h
        cases h
        exact ⟨fun he => hs (List.isEmpty_iff.mpr he), ht, filter, grouping, hf, hg, rfl⟩
  · rintro ⟨hs, ht, filter, grouping, hf, hg, rfl⟩
    rw [if_neg fun he => hs (List.isEmpty_iff.mp he), if_neg ht, hf, hg]
    rfl

theorem Query.compose_ok {q : Query} (h : q.compose = .ok text) :
    q.clauses.select ≠ [] ∧ ∃ filter grouping, q.clauses.filterText = .ok filter ∧
      q.clauses.groupingText = .ok grouping ∧
      text = q.clauses.assemble (trimBlank q.target) filter grouping :=
  (compose_eq_ok_iff.mp h).imp_right And.right

theorem Grouping.render_eq (g : Grouping) :
    g.render =
      if g.fields.isEmpty then .error .emptyGroupBy
      else
        match g.having with
        | none => .ok (groupedFields g.fields g.subtotals)
        | some c => do return groupedFields g.fields g.subtotals ++ " HAVING " ++ (← c.render) := by
  obtain ⟨fields, subtotals, having⟩ := g
  cases having <;> rw [Grouping.render]

end OrgClient.Soql
