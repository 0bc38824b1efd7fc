import OrgClient.Proofs.Soql.Defect

namespace OrgClient.Soql

set_option autoImplicit true

namespace FieldRef

mutual

/-- The reference without labels, at any depth. -/
def unlabelled : FieldRef → FieldRef
  | .plain name => .plain name
  | .related path field => .related path field
  | .call function arguments _ => .call function (unlabelledAll arguments) none
  | .subquery text => .subquery text

def unlabelledAll : List FieldRef → List FieldRef
  | [] => []
  | f :: fs => f.unlabelled :: unlabelledAll fs

end

/-- The reference with its outermost label and no other. -/
def unlabelledInside : FieldRef → FieldRef
  | .call function arguments label => .call function (unlabelledAll arguments) label
  | f => f

mutual

theorem render_unlabelled : ∀ f : FieldRef, f.unlabelled.render = f.render
  | .plain _ => rfl
  | .related _ _ => rfl
  | .call function arguments label => by
    rw [unlabelled, render, render, renderAll_unlabelledAll arguments]
  | .subquery _ => rfl

theorem renderAll_unlabelledAll : ∀ fs, renderAll (unlabelledAll fs) = renderAll fs
  | [] => rfl
  | f :: fs => by
    rw [unlabelledAll, renderAll, renderAll, f.render_unlabelled, renderAll_unlabelledAll fs]

end

theorem renderSelect_unlabelledInside (f : FieldRef) :
    f.unlabelledInside.renderSelect = f.renderSelect := by
  cases f with
  | call function arguments label =>
    cases label <;>
      simp only [unlabelledInside, renderSelect, render, renderAll_unlabelledAll]
  | plain name => rfl
  | related path field => rfl
  | subquery text => rfl

end FieldRef

def Ordering.unlabelled (o : Ordering) : Ordering :=
  { o with field := o.field.unlabelled }

mutual

/-- The condition without labels; see `Query.unlabelled` for the queries in it. -/
def Condition.unlabelled : Condition → Condition
  | .compare f op v => .compare f.unlabelled op v
  | .oneOf f op vs => .oneOf f.unlabelled op vs
  | .within f op q => .within f.unlabelled op q.unlabelled
  | .group op cs negated => .group op (Condition.unlabelledAll cs) negated

def Condition.unlabelledAll : List Condition → List Condition
  | [] => []
  | c :: cs => c.unlabelled :: Condition.unlabelledAll cs

def Grouping.unlabelled : Grouping → Grouping
  | ⟨fields, subtotals, none⟩ => ⟨FieldRef.unlabelledAll fields, subtotals, none⟩
  | ⟨fields, subtotals, some c⟩ => ⟨FieldRef.unlabelledAll fields, subtotals, some c.unlabelled⟩

/-- The query without labels in any clause, except for the outermost ones in its select list. -/
def Query.unlabelled : Query → Query
  | ⟨target, ⟨select, filter, grouping, order, limit, offset, purposes, statistics⟩⟩ =>
    ⟨target, ⟨select.map FieldRef.unlabelledInside,
      (match filter with
        | none => none
        | some c => some c.unlabelled),
      (match grouping with
        | none => none
        | some g => some g.unlabelled),
      order.map Ordering.unlabelled, limit, offset, purposes, statistics⟩⟩

end

theorem Ordering.render_unlabelled (o : Ordering) : o.unlabelled.render = o.render := by
  rw [render_eq, render_eq]
  exact congrArg (· ++ _ ++ _) o.field.render_unlabelled

theorem isGroup_unlabelled (c : Condition) : c.unlabelled.isGroup = c.isGroup := by
  cases c <;> (rw [Condition.unlabelled]; rfl)

theorem Condition.isEmpty_unlabelledAll (cs : List Condition) :
    (unlabelledAll cs).isEmpty = cs.isEmpty := by
  cases cs with
  | nil => rw [unlabelledAll]
  | cons c cs =>
    rw [unlabelledAll]
    rfl

theorem Condition.renderParts_unlabelledAll
    (h : ∀ c ∈ cs, (unlabelled c).render = c.render) :
    renderParts (unlabelledAll cs) = renderParts cs := by
  induction cs with
  | nil => rw [unlabelledAll]
  | cons c cs ih =>
    rw [unlabelledAll, renderParts, renderParts, isGroup_unlabelled, h c List.mem_cons_self,
      ih fun d hd => h d (List.mem_cons_of_mem _ hd)]

theorem isEmpty_unlabelledAll (fs : List FieldRef) :
    (FieldRef.unlabelledAll fs).isEmpty = fs.isEmpty := by
  cases fs <;> rfl

theorem groupedFields_unlabelledAll (fs : List FieldRef) (s : Option Subtotals) :
    groupedFields (FieldRef.unlabelledAll fs) s = groupedFields fs s := by
  simp only [groupedFields, FieldRef.renderAll_unlabelledAll]

theorem Grouping.render_unlabelled (g : Grouping)
    (h : ∀ c ∈ g.having, c.unlabelled.render = c.render) : g.unlabelled.render = g.render := by
  obtain ⟨fields, subtotals, having⟩ := g
  cases having with
  | none =>
    rw [unlabelled, render, render, isEmpty_unlabelledAll, groupedFields_unlabelledAll]
  | some c =>
    rw [unlabelled, render, render, isEmpty_unlabelledAll, groupedFields_unlabelledAll, h c rfl]

namespace Clauses

/-- The clauses of a query without labels. -/
def unlabelled (c : Clauses) : Clauses :=
  { c with
    select := c.select.map FieldRef.unlabelledInside
    filter := c.filter.map Condition.unlabelled
    grouping := c.grouping.map Grouping.unlabelled
    order := c.order.map Ordering.unlabelled }

variable (c : Clauses)

theorem columns_unlabelled : c.unlabelled.columns = c.columns := by
  have hs : FieldRef.renderSelect ∘ FieldRef.unlabelledInside = FieldRef.renderSelect :=
    funext FieldRef.renderSelect_unlabelledInside
  rw [columns, unlabelled, List.map_map, hs, columns]

theorem tail_unlabelled : c.unlabelled.tail = c.tail := by
  have ho : Ordering.render ∘ Ordering.unlabelled = Ordering.render :=
    funext Ordering.render_unlabelled
  have hc : c.unlabelled.orderText = c.orderText := by
    rw [orderText, unlabelled, List.isEmpty_map, List.map_map, ho, orderText]
  rw [tail_eq, tail_eq, hc]
  rfl

theorem assemble_unlabelled (target filter grouping : String) :
    c.unlabelled.assemble target filter grouping = c.assemble target filter grouping := by
  rw [assemble, assemble, columns_unlabelled, tail_unlabelled]

theorem filterText_unlabelled (h : ∀ f ∈ c.filter, f.unlabelled.render = f.render) :
    c.unlabelled.filterText = c.filterText := by
  rw [filterText, filterText, unlabelled]
  cases hf : c.filter with
  | none => rfl
  | some f => simp only [Option.map_some, h f hf]

theorem groupingText_unlabelled
    (h : ∀ g ∈ c.grouping, ∀ f ∈ g.having, f.unlabelled.render = f.render) :
    c.unlabelled.groupingText = c.groupingText := by
  rw [groupingText, groupingText, unlabelled]
  cases hg : c.grouping with
  | none => rfl
  | some g => simp only [Option.map_some, g.render_unlabelled (h g hg)]

end Clauses

theorem Query.unlabelled_eq (q : Query) : q.unlabelled = ⟨q.target, q.clauses.unlabelled⟩ := by
  obtain ⟨target, select, filter, grouping, order, limit, offset, purposes, statistics⟩ := q
  cases filter <;> cases grouping <;> rw [Query.unlabelled] <;> rfl

/-- No text and no error shows the labels that are left out. -/
theorem depthStep_unlabelled :
    DepthStep (fun c => c.unlabelled.render = c.render)
      (fun q => q.unlabelled.compose = q.compose) where
  compare field op value := by
    rw [Condition.unlabelled, Condition.render, Condition.render, renderComparison,
      renderComparison, field.render_unlabelled]
  oneOf field op values := by
    simp only [Condition.unlabelled, Condition.render, renderMembership, field.render_unlabelled]
  within field op query h := by
    simp only [Condition.unlabelled, Condition.render, renderMembership, field.render_unlabelled, h]
  group op children negated h := by
    rw [Condition.unlabelled, Condition.render, Condition.render,
      Condition.isEmpty_unlabelledAll, Condition.renderParts_unlabelledAll h]
  query q hf hh := by
    have hs : q.clauses.unlabelled.select.isEmpty = q.clauses.select.isEmpty := List.isEmpty_map
    rw [Query.compose_eq, Query.compose_eq, Query.unlabelled_eq]
    simp only [hs, q.clauses.filterText_unlabelled hf, q.clauses.groupingText_unlabelled hh,
      Clauses.assemble_unlabelled]

theorem Query.compose_unlabelled (q : Query) : q.unlabelled.compose = q.compose :=
  q.depth_induction depthStep_unlabelled

/-- Queries that differ in labels only, but not in the outermost ones of their select lists, have
the same text or the same error. References that differ in labels have the same text; it is the same
in select lists too if they have the same label outside. -/
theorem Query.compose_eq_of_unlabelled_eq (q q' : Query) (f g : FieldRef) :
    (q.unlabelled = q'.unlabelled → q.compose = q'.compose) ∧
      (f.unlabelled = g.unlabelled → f.render = g.render) ∧
      (f.unlabelledInside = g.unlabelledInside → f.renderSelect = g.renderSelect) := by
  refine ⟨fun h => ?_, fun h => ?_, fun h => ?_⟩
  · rw [← q.compose_unlabelled, h, q'.compose_unlabelled]
  · rw [← f.render_unlabelled, h, g.render_unlabelled]
  · rw [← f.renderSelect_unlabelledInside, h, g.renderSelect_unlabelledInside]

/-- The number of leads of each year, with a label for the year in all clauses. -/
def leadsByYear (label : Option String) : Query :=
  let year := FieldRef.call .calendarYear [.call .convertTimezone [.plain "CreatedDate"] label]
  let count := FieldRef.call .count [.plain "Id"]
  ⟨"Lead", ⟨[year (some "y"), count none],
    some (.within (.plain "Id") .isIn
      ⟨"Event", ⟨[.plain "WhoId"], some (.compare (year label) .gt (.integer 2020)), none, [], none,
        none, [], none⟩⟩),
    some ⟨[year label], none, some (.compare (count label) .gt (.integer 5))⟩,
    [⟨year label, some .descending, none⟩], none, none, [], none⟩⟩

def totalAmount (inner : Option String) : FieldRef :=
  .call .sum [.call .convertCurrency [.plain "Amount"] inner] (some "total")

theorem leadsByYear_same_text :
    ((leadsByYear (some "a")).unlabelled = (leadsByYear none).unlabelled ∧
      (leadsByYear (some "a")).compose = (leadsByYear none).compose) ∧
      (totalAmount (some "a")).render = (totalAmount none).render ∧
      (totalAmount (some "a")).renderSelect = (totalAmount none).renderSelect := by
  have hq : (leadsByYear (some "a")).unlabelled = (leadsByYear none).unlabelled := rfl
  have hf : (totalAmount (some "a")).unlabelled = (totalAmount none).unlabelled := rfl
  have hs : (totalAmount (some "a")).unlabelledInside = (totalAmount none).unlabelledInside := rfl
  obtain ⟨h, h', h''⟩ := Query.compose_eq_of_unlabelled_eq (leadsByYear (some "a"))
    (leadsByYear none) (totalAmount (some "a")) (totalAmount none)
  exact ⟨⟨hq, h hq⟩, h' hf, h'' hs⟩

end OrgClient.Soql
