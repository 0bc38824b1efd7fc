import OrgClient.Proofs.Number.Figure
import OrgClient.Proofs.Soql.Composing
import OrgClient.Proofs.Soql.Naming
import OrgClient.Proofs.Soql.Tree

namespace OrgClient.Soql

open Text Number
set_option autoImplicit true

/-- Trees with commas between them. -/
def listed (tss : List (List Tree)) : List Tree :=
  [.comma, .blank ' '].intercalate tss

def Literal.chars (v : Literal) : List Char :=
  match v.render with
  | .ok text => text.toList
  | .error _ => []

def Literal.tree : Literal → Tree
  | .string s => .quoted (escape s).toList
  | v => .word v.chars

mutual

/-- The trees of a reference outside select lists. -/
def FieldRef.trees : FieldRef → List Tree
  | .plain name => [.word name.toList]
  | .related path field => [.word (".".intercalate path ++ "." ++ field).toList]
  | .call function arguments _ =>
    [.word function.name.toList, .group (listed (treesAll arguments))]
  | .subquery text => (read text).getD []

def FieldRef.treesAll : List FieldRef → List (List Tree)
  | [] => []
  | f :: fs => f.trees :: treesAll fs

end

def FieldRef.selectTrees : FieldRef → List Tree
  | .call function arguments (some label) =>
    trees (.call function arguments (some label)) ++ .blank ' ' :: [.word label.toList]
  | f => f.trees

def Membership.trees : Membership → List Tree
  | .isIn => [.word ['I', 'N']]
  | .notIn => [.word ['N', 'O', 'T'], .blank ' ', .word ['I', 'N']]
  | .includes => [.word "INCLUDES".toList]
  | .excludes => [.word "EXCLUDES".toList]

def Connective.word : Connective → List Char
  | .and => ['A', 'N', 'D']
  | .or => ['O', 'R']

def Connective.trees (op : Connective) : List Tree :=
  [.blank ' ', .word op.word, .blank ' ']

def membershipTrees (field : FieldRef) (op : Membership) (list : List Tree) : List Tree :=
  field.trees ++ .blank ' ' :: op.trees ++ .blank ' ' :: [.group list]

/-- The trees of a clause: its word, and what follows. -/
def clause (word : String) (body : List Tree) : List Tree :=
  .blank ' ' :: .word word.toList :: .blank ' ' :: body

def groupedTrees (fields : List FieldRef) (subtotals : Option Subtotals) : List Tree :=
  match subtotals with
  | none => listed (FieldRef.treesAll fields)
  | some .cube => [.word "CUBE".toList, .group (listed (FieldRef.treesAll fields))]
  | some .rollup => [.word "ROLLUP".toList, .group (listed (FieldRef.treesAll fields))]

/-- The trees of words, each behind a blank. -/
def wordTrees (ws : List String) : List Tree :=
  ws.flatMap fun w => [.blank ' ', .word w.toList]

def directionWords : Option Direction → List String
  | none => []
  | some .ascending => ["ASC"]
  | some .descending => ["DESC"]

def nullsWords : Option Nulls → List String
  | none => []
  | some .first => ["NULLS", "FIRST"]
  | some .last => ["NULLS", "LAST"]

def Ordering.trees (o : Ordering) : List Tree :=
  o.field.trees ++ wordTrees (directionWords o.direction ++ nullsWords o.nulls)

def optionalClause (word : String) (body : Option (List Tree)) : List (String × List Tree) :=
  match body with
  | none => []
  | some ts => [(word, ts)]

def clausesTrees (ps : List (String × List Tree)) : List Tree :=
  ps.flatMap fun p => clause p.1 p.2

namespace Clauses

def columnTrees (c : Clauses) : List Tree :=
  listed (c.columns.map fun text => (read text).getD [])

def orderTrees (c : Clauses) : Option (List Tree) :=
  if c.order.isEmpty then none
  else some (.word "BY".toList :: .blank ' ' :: listed (c.order.map Ordering.trees))

def purposeWords (c : Clauses) : List String :=
  if c.purposes.isEmpty then [] else "FOR" :: c.purposeTexts

def statisticsWords (c : Clauses) : List String :=
  match c.statistics with
  | none => []
  | some s => ["UPDATE", s.text]

/-- The words from `FOR` to the end of a query. -/
def lastWords (c : Clauses) : List String :=
  c.purposeWords ++ c.statisticsWords

end Clauses

def numberTrees (n : Nat) : List Tree :=
  [.word (natText n).toList]

/-- The trees of a query with its clauses from `FROM` to `OFFSET`. -/
def Clauses.trees (c : Clauses) (ps : List (String × List Tree)) : List Tree :=
  .word "SELECT".toList :: .blank ' ' :: c.columnTrees ++ clausesTrees ps ++ wordTrees c.lastWords

mutual

/-- The trees of a condition. -/
def Condition.trees : Condition → List Tree
  | .compare field op value =>
    field.trees ++ .blank ' ' :: [.word op.text.toList] ++ .blank ' ' :: [value.tree]
  | .oneOf field op values => membershipTrees field op (listed (values.map fun v => [v.tree]))
  | .within field op query =>
    membershipTrees field op (query.clauses.trees query.clauseTrees)
  | .group op children negated =>
    let joined := op.trees.intercalate (Condition.partTrees children)
    if negated then [.word ['N', 'O', 'T'], .blank ' ', .group joined] else joined

/-- The trees of the conditions of a group; groups among them are in parentheses. -/
def Condition.partTrees : List Condition → List (List Tree)
  | [] => []
  | c :: cs => (if c.isGroup then [.group c.trees] else c.trees) :: Condition.partTrees cs

def Grouping.havingTrees : Grouping → Option (List Tree)
  | ⟨_, _, none⟩ => none
  | ⟨_, _, some c⟩ => some c.trees

/-- The clauses of a query from `FROM` to `OFFSET`. -/
def Query.clauseTrees : Query → List (String × List Tree)
  | ⟨target, ⟨select, filter, grouping, order, limit, offset, purposes, statistics⟩⟩ =>
    let clauses : Clauses :=
      ⟨select, filter, grouping, order, limit, offset, purposes, statistics⟩
    ("FROM", [.word (trimBlank target).toList])
      :: optionalClause "WHERE" (match filter with
        | none => none
        | some c => some c.trees)
      ++ (match grouping with
        | none => []
        | some g =>
          ("GROUP", .word "BY".toList :: .blank ' ' :: groupedTrees g.fields g.subtotals)
            :: optionalClause "HAVING" g.havingTrees)
      ++ optionalClause "ORDER" clauses.orderTrees
      ++ optionalClause "LIMIT" (limit.map numberTrees)
      ++ optionalClause "OFFSET" (offset.map numberTrees)

end

def Query.trees (q : Query) : List Tree :=
  q.clauses.trees q.clauseTrees

theorem isWordChar_of_isNameChar (h : isNameChar c) : isWordChar c :=
  isWordChar_of (p := isNameChar) (by decide) h

theorem isWordChar_of_isFigure (h : isFigure c) : isWordChar c :=
  isWordChar_of (p := isFigure) (by decide) h

/-- A text that is read as one word. -/
def IsWord (s : String) : Prop :=
  s.toList ≠ [] ∧ ∀ c ∈ s.toList, isWordChar c

theorem IsWord.of_isName (h : isName s) : IsWord s :=
  ⟨ne_nil_of_isName h, fun c hc => isWordChar_of_isNameChar (isNameChar_of_isName h c hc)⟩

theorem FreeName.isWord (h : FreeName s) : IsWord s :=
  .of_isName h.name

namespace Spells

theorem of_isWord (h : IsWord s) : Spells s [.word s.toList] :=
  .word h.1 h.2

theorem name (h : isName s) : Spells s [.word s.toList] :=
  .of_isWord (.of_isName h)

theorem figures (h : Figures s.toList) : Spells s [.word s.toList] :=
  .word h.ne_nil fun c hc => isWordChar_of_isFigure (h.figures c hc)

end Spells

theorem Spells.relativeDate (h : isRelativeDate s) : Spells s [.word s.toList] := by
  rcases isRelativeDate_cases h with hs | ⟨name, hm, n, hs, hn⟩
  · exact .name (isName_relativeDates s (List.mem_append_left _ hs))
  · have hw := isNameChar_of_isName (isName_relativeDates name (List.mem_append_right _ hm))
    apply Spells.word
    · rw [hs]
      exact List.append_ne_nil_of_right_ne_nil _ (List.cons_ne_nil _ _)
    · intro c hc
      rw [hs] at hc
      rcases List.mem_append.mp hc with hc | hc
      · exact isWordChar_of_isNameChar (hw c hc)
      · rcases List.mem_cons.mp hc with rfl | hc
        · rfl
        · exact isWordChar_of_isFigure (isFigure_of_isDigit (hn c hc))

theorem Literal.Known.spells {v : Literal} (hv : v.Known) (h : v.render = .ok text) :
    Spells text [v.tree] := by
  cases v with
  | string s =>
    cases h
    exact .quote s
  | integer n =>
    cases h
    exact .figures (.intText n)
  | number x =>
    have hx : x.isFinite := by
      by_contra hx
      simp [render, hx] at h
    have hc : (number x).tree = .word text.toList := by
      change Tree.word (number x).chars = _
      rw [chars, h]
    rw [hc]
    rw [render, if_pos hx] at h
    cases h
    exact .figures (.double hx)
  | boolean b => cases b <;> cases h <;> exact .name rfl
  | date d =>
    cases h
    exact .figures (.date d)
  | instant t =>
    obtain rfl : t.text = text := Except.ok.inj h
    exact .figures (.instant t)
  | relativeDate s =>
    cases h
    exact .relativeDate hv
  | null =>
    cases h
    exact .name rfl

theorem mem_intercalate (h : c ∈ List.intercalate m ls) : c ∈ m ∨ ∃ l ∈ ls, c ∈ l := by
  induction ls with
  | nil => cases h
  | cons l ls ih =>
    cases ls with
    | nil =>
      rw [List.intercalate_singleton] at h
      exact .inr ⟨l, List.mem_cons_self, h⟩
    | cons k ls =>
      rw [List.intercalate_cons_cons, List.append_assoc, List.mem_append, List.mem_append] at h
      rcases h with h | h | h
      · exact .inr ⟨l, List.mem_cons_self, h⟩
      · exact .inl h
      · exact (ih h).imp_right fun ⟨k, hk, hc⟩ => ⟨k, List.mem_cons_of_mem _ hk, hc⟩

theorem Spells.path {path : List String} (hp : ∀ s ∈ path, IsWord s) (h : IsWord field) :
    Spells (".".intercalate path ++ "." ++ field)
      [.word (".".intercalate path ++ "." ++ field).toList] := by
  apply Spells.word
  · simp
  · intro c hc
    simp only [String.toList_append, String.toList_intercalate, List.mem_append] at hc
    rcases hc with (hc | hc) | hc
    · rcases mem_intercalate hc with hc | ⟨l, hl, hc⟩
      · rw [List.mem_singleton.mp hc]
        decide
      · obtain ⟨s, hs, rfl⟩ := List.mem_map.mp hl
        exact (hp s hs).2 c hc
    · rw [List.mem_singleton.mp hc]
      decide
    · exact h.2 c hc

theorem Spells.listed (h : List.Forall₂ Spells ss tss) :
    Spells (", ".intercalate ss) (listed tss) :=
  .intercalate (Spells.comma.append .space (.blank _ _)) ⟨⟨_, rfl, rfl⟩, ⟨_, rfl, rfl⟩⟩ h

theorem Spells.clause {k : String} (hk : Spells k [.word k.toList]) (hs : Spells s ts) :
    Spells (" " ++ k ++ " " ++ s) (clause k ts) :=
  (Spells.empty.spaced hk).spaced hs

theorem Function.spells (f : Function) : Spells f.name [.word f.name.toList] :=
  .name f.isName_name

theorem Comparison.spells (op : Comparison) : Spells op.text [.word op.text.toList] := by
  cases op <;> exact .word (by decide) (List.all_eq_true.mp (by decide))

theorem Membership.spells (op : Membership) : Spells op.text op.trees := by
  cases op with
  | isIn => exact .name rfl
  | notIn =>
    have hn : Spells "NOT" [.word "NOT".toList] := .name rfl
    have hi : Spells "IN" [.word "IN".toList] := .name rfl
    exact hn.spaced hi
  | includes => exact .name rfl
  | excludes => exact .name rfl

theorem Connective.spells (op : Connective) : Spells op.separator op.trees := by
  cases op with
  | and =>
    have ha : Spells "AND" [.word "AND".toList] := .name rfl
    exact (Spells.empty.spaced ha).append .space (.blank _ _)
  | or =>
    have ho : Spells "OR" [.word "OR".toList] := .name rfl
    exact (Spells.empty.spaced ho).append .space (.blank _ _)

theorem spells_treesAll (h : ∀ f ∈ fs, Spells (FieldRef.render f) f.trees) :
    List.Forall₂ Spells (FieldRef.renderAll fs) (FieldRef.treesAll fs) := by
  induction fs with
  | nil => exact .nil
  | cons f fs ih =>
    rw [FieldRef.renderAll, FieldRef.treesAll]
    exact .cons (h f List.mem_cons_self) (ih fun g hg => h g (List.mem_cons_of_mem _ hg))

theorem spells_literals (hv : ∀ v ∈ vs, Literal.Known v) (h : Literal.renderAll vs = .ok texts) :
    List.Forall₂ Spells texts (vs.map fun v => [v.tree]) := by
  induction vs generalizing texts with
  | nil =>
    cases h
    exact .nil
  | cons v vs ih =>
    rw [Literal.renderAll, bind_eq_ok_iff] at h
    obtain ⟨text, ht, h⟩ := h
    obtain ⟨texts', hts, h⟩ := bind_eq_ok_iff.mp h
    cases h
    have hs := (hv v List.mem_cons_self).spells ht
    exact .cons hs (ih (fun u hu => hv u (List.mem_cons_of_mem _ hu)) hts)

theorem Spells.part (c : Condition) (h : Spells s c.trees) :
    Spells (if c.isGroup then "(" ++ s ++ ")" else s)
      (if c.isGroup then [.group c.trees] else c.trees) := by
  cases c.isGroup with
  | true => exact Spells.empty.grouped h
  | false => exact h

theorem spells_parts (hc : ∀ c ∈ cs, ∀ text, Condition.render c = .ok text → Spells text c.trees)
    (h : Condition.renderParts cs = .ok texts) :
    List.Forall₂ Spells texts (Condition.partTrees cs) := by
  induction cs generalizing texts with
  | nil =>
    rw [Condition.renderParts] at h
    cases h
    rw [Condition.partTrees]
    exact .nil
  | cons c cs ih =>
    rw [Condition.renderParts, bind_eq_ok_iff] at h
    obtain ⟨text, ht, h⟩ := h
    obtain ⟨texts', hts, h⟩ := bind_eq_ok_iff.mp h
    cases h
    rw [Condition.partTrees]
    have hs := hc c List.mem_cons_self text ht
    exact .cons (hs.part c) (ih (fun d hd => hc d (List.mem_cons_of_mem _ hd)) hts)

theorem Connective.loose (op : Connective) : Loose (flatten op.trees) := by
  cases op <;> exact ⟨⟨_, rfl, rfl⟩, ⟨_, rfl, rfl⟩⟩

theorem Spells.membership (hf : Spells f.render f.trees) (hl : Spells list ts) :
    Spells (renderMembership f op list) (membershipTrees f op ts) := by
  have h := ((hf.spaced op.spells).append .space (.blank _ _)).grouped hl
  have hp : " (" = " " ++ "(" := rfl
  rw [membershipTrees, renderMembership, hp, ← String.append_assoc]
  simpa only [List.append_assoc, List.cons_append, List.nil_append] using h

theorem Spells.joined (op : Connective) (negated : Bool) (h : List.Forall₂ Spells texts tss) :
    Spells (renderGroup op negated texts)
      (if negated then [.word ['N', 'O', 'T'], .blank ' ', .group (op.trees.intercalate tss)]
        else op.trees.intercalate tss) := by
  have hs := op.spells.intercalate op.loose h
  cases negated with
  | false => exact hs
  | true =>
    have hn : Spells "NOT" [.word "NOT".toList] := .name rfl
    exact (hn.append .space (.blank _ _)).grouped hs

theorem Detached.clauses (ps : List (String × List Tree)) : Detached (clausesTrees ps) := by
  cases ps with
  | nil => exact .nil
  | cons p ps => exact .blank _ _

theorem Detached.words (ws : List String) : Detached (wordTrees ws) := by
  cases ws with
  | nil => exact .nil
  | cons w ws => exact .blank _ _

theorem Detached.append (ht : Detached ts) (hu : Detached us) : Detached (ts ++ us) := by
  intro t h
  rw [flatten_append, List.head?_append] at h
  cases hf : (flatten ts).head? with
  | none =>
    rw [hf] at h
    exact hu t h
  | some u =>
    rw [hf] at h
    cases h
    exact ht t hf

@[simp] theorem clausesTrees_cons (p : String × List Tree) (ps : List (String × List Tree)) :
    clausesTrees (p :: ps) = clause p.1 p.2 ++ clausesTrees ps := by
  rw [clausesTrees, List.flatMap_cons]
  rfl

@[simp] theorem clausesTrees_append (ps qs : List (String × List Tree)) :
    clausesTrees (ps ++ qs) = clausesTrees ps ++ clausesTrees qs := by
  rw [clausesTrees, List.flatMap_append]
  rfl

@[simp] theorem wordTrees_append (vs ws : List String) :
    wordTrees (vs ++ ws) = wordTrees vs ++ wordTrees ws := by
  rw [wordTrees, List.flatMap_append]
  rfl

theorem Spells.optional {k : String} (hk : Spells k [.word k.toList]) (hs : Spells s ts) :
    Spells (" " ++ k ++ " " ++ s) (clausesTrees (optionalClause k (some ts))) := by
  simp only [optionalClause, clausesTrees, List.flatMap_cons, List.flatMap_nil, List.append_nil]
  exact .clause hk hs

theorem Spells.words (hne : ws ≠ []) (h : ∀ w ∈ ws, Spells w [.word w.toList]) :
    Spells (" " ++ " ".intercalate ws) (wordTrees ws) := by
  induction ws with
  | nil => exact absurd rfl hne
  | cons w ws ih =>
    have hw := Spells.empty.spaced (h w List.mem_cons_self)
    cases ws with
    | nil =>
      rw [String.intercalate_singleton]
      exact hw
    | cons v ws =>
      rw [String.intercalate_cons_cons, String.append_assoc, ← String.append_assoc]
      have hv := ih (List.cons_ne_nil _ _) fun u hu => h u (List.mem_cons_of_mem _ hu)
      exact hw.append hv (Detached.words (v :: ws))

theorem Spells.getD_read (h : Spells s ts) : Spells s ((Soql.read s).getD []) := by
  rw [h.read]
  exact h

theorem FieldRef.Over.spells_select (hN : ∀ s, N s → IsWord s) (h : FieldRef.Over N f)
    (hs : Spells f.render f.trees) : Spells f.renderSelect f.selectTrees := by
  cases h with
  | @call fs label function ha hl =>
    cases label with
    | none => exact hs
    | some s => exact hs.spaced (.of_isWord (hN s (hl s rfl)))
  | plain h => exact hs
  | related hp h => exact hs
  | subquery hq h => exact hs

theorem Spells.columns {c : Clauses} (h : ∀ f ∈ c.select, Spells f.renderSelect f.selectTrees) :
    Spells (", ".intercalate c.columns) c.columnTrees := by
  refine .listed (List.forall₂_map_right_iff.mpr (List.forall₂_same.mpr ?_))
  intro s hs
  obtain ⟨f, hf, rfl⟩ := List.mem_map.mp (mem_firstOccurrences hs)
  exact (h f hf).getD_read

theorem Spells.groupedFields (h : ∀ f ∈ fs, Spells (FieldRef.render f) f.trees) :
    Spells (groupedFields fs subtotals) (groupedTrees fs subtotals) := by
  have hl := Spells.listed (spells_treesAll h)
  have hc : Spells "CUBE" [.word "CUBE".toList] := .name rfl
  have hr : Spells "ROLLUP" [.word "ROLLUP".toList] := .name rfl
  cases subtotals with
  | none => exact hl
  | some t =>
    cases t with
    | cube => exact hc.grouped hl
    | rollup => exact hr.grouped hl

theorem spells_direction (d : Option Direction) :
    Spells (directionText d) (wordTrees (directionWords d)) := by
  have ha : Spells "ASC" [.word "ASC".toList] := .name rfl
  have hd : Spells "DESC" [.word "DESC".toList] := .name rfl
  rcases d with _ | _ | _
  · exact .empty
  · exact Spells.empty.spaced ha
  · exact Spells.empty.spaced hd

theorem spells_nulls (n : Option Nulls) :
    Spells (nullsText n) (wordTrees (nullsWords n)) := by
  have hn : Spells "NULLS" [.word "NULLS".toList] := .name rfl
  have hf : Spells "FIRST" [.word "FIRST".toList] := .name rfl
  have hl : Spells "LAST" [.word "LAST".toList] := .name rfl
  rcases n with _ | _ | _
  · exact .empty
  · exact (Spells.empty.spaced hn).spaced hf
  · exact (Spells.empty.spaced hn).spaced hl

theorem Spells.ordering (h : Spells o.field.render o.field.trees) :
    Spells (Ordering.render o) o.trees := by
  have hs := (h.append (spells_direction o.direction) (.words _)).append (spells_nulls o.nulls)
    (.words _)
  rw [Ordering.render_eq, Ordering.trees, wordTrees_append, ← List.append_assoc]
  exact hs

theorem Purpose.spells (p : Purpose) : Spells p.text [.word p.text.toList] := by
  cases p <;> exact .name rfl

theorem Statistics.spells (s : Statistics) : Spells s.text [.word s.text.toList] := by
  cases s <;> exact .name rfl

namespace Clauses

/-- The clauses behind the grouping, up to `OFFSET`. -/
def pageTrees (c : Clauses) : List (String × List Tree) :=
  optionalClause "ORDER" c.orderTrees ++ optionalClause "LIMIT" (c.limit.map numberTrees)
    ++ optionalClause "OFFSET" (c.offset.map numberTrees)

theorem spells_purposes (c : Clauses) : Spells c.purposesText (wordTrees c.purposeWords) := by
  rw [purposesText, purposeWords]
  cases h : c.purposes.isEmpty with
  | true => exact .empty
  | false =>
    have hf : Spells "FOR" [.word "FOR".toList] := .name rfl
    have hw : Spells (" " ++ " ".intercalate c.purposeTexts) (wordTrees c.purposeTexts) := by
      have hp : c.purposes.map Purpose.text ≠ [] := by
        intro hp
        rw [List.map_eq_nil_iff.mp hp] at h
        cases h
      apply Spells.words (firstOccurrences_ne_nil hp)
      intro w hw
      obtain ⟨p, _, rfl⟩ := List.mem_map.mp (mem_firstOccurrences hw)
      exact p.spells
    have hs := (Spells.empty.spaced hf).append hw (.words _)
    rwa [← String.append_assoc] at hs

theorem spells_statistics (c : Clauses) :
    Spells (statisticsText c.statistics) (wordTrees c.statisticsWords) := by
  rw [statisticsWords]
  cases c.statistics with
  | none => exact .empty
  | some s =>
    have hu : Spells "UPDATE" [.word "UPDATE".toList] := .name rfl
    exact (Spells.empty.spaced hu).spaced s.spells

theorem spells_order {c : Clauses} (h : ∀ o ∈ c.order, Spells (Ordering.render o) o.trees) :
    Spells c.orderText (clausesTrees (optionalClause "ORDER" c.orderTrees)) := by
  have hor : Spells "ORDER" [.word "ORDER".toList] := .name rfl
  have hby : Spells "BY" [.word "BY".toList] := .name rfl
  have hos : Spells (", ".intercalate (c.order.map Ordering.render))
      (listed (c.order.map Ordering.trees)) := by
    refine .listed (List.forall₂_map_left_iff.mpr (List.forall₂_map_right_iff.mpr ?_))
    exact List.forall₂_same.mpr h
  rw [orderText, orderTrees]
  split
  · exact .empty
  · have hs := Spells.optional hor (hby.spaced hos)
    rw [← String.append_assoc, ← String.append_assoc] at hs
    exact hs

theorem spells_tail {c : Clauses} (h : ∀ o ∈ c.order, Spells (Ordering.render o) o.trees) :
    Spells c.tail (clausesTrees c.pageTrees ++ wordTrees c.lastWords) := by
  have hli : Spells "LIMIT" [.word "LIMIT".toList] := .name rfl
  have hof : Spells "OFFSET" [.word "OFFSET".toList] := .name rfl
  have hl : Spells (boundText " LIMIT " c.limit)
      (clausesTrees (optionalClause "LIMIT" (c.limit.map numberTrees))) := by
    cases c.limit with
    | none => exact .empty
    | some n => exact .optional hli (.figures (.natText n))
  have hn : Spells (boundText " OFFSET " c.offset)
      (clausesTrees (optionalClause "OFFSET" (c.offset.map numberTrees))) := by
    cases c.offset with
    | none => exact .empty
    | some n => exact .optional hof (.figures (.natText n))
  have hs := ((((spells_order h).append hl (.clauses _)).append hn (.clauses _)).append
    c.spells_purposes (.words _)).append c.spells_statistics (.words _)
  rw [tail_eq, pageTrees, lastWords, clausesTrees_append, clausesTrees_append, wordTrees_append,
    ← List.append_assoc]
  exact hs

/-- The trees of a query are those of its columns, its table, its conditions and groups, its order
and its last words. -/
theorem spells_assemble {c : Clauses} {filter grouping : String}
    (hs : ∀ f ∈ c.select, Spells f.renderSelect f.selectTrees)
    (ht : Spells target [.word target.toList]) (hf : Spells filter (clausesTrees fs))
    (hg : Spells grouping (clausesTrees gs))
    (ho : ∀ o ∈ c.order, Spells (Ordering.render o) o.trees) :
    Spells (c.assemble target filter grouping)
      (c.trees (("FROM", [.word target.toList]) :: fs ++ gs ++ c.pageTrees)) := by
  have hse : Spells "SELECT" [.word "SELECT".toList] := .name rfl
  have hfr : Spells "FROM" [.word "FROM".toList] := .name rfl
  have hq := ((((hse.spaced (Spells.columns hs)).append (Spells.clause hfr ht)
    (.blank _ _)).append hf (.clauses _)).append hg (.clauses _)).append (spells_tail ho)
    (.append (.clauses _) (.words _))
  have he : c.assemble target filter grouping =
      "SELECT" ++ " " ++ ", ".intercalate c.columns ++ (" " ++ "FROM" ++ " " ++ target) ++ filter
        ++ grouping ++ c.tail := by
    have hs : " FROM " ++ target = " " ++ "FROM" ++ " " ++ target := rfl
    rw [assemble, ← hs, ← String.append_assoc]
    rfl
  rw [he, Clauses.trees]
  simpa only [List.cons_append, List.append_assoc, List.nil_append, clausesTrees_append,
    clausesTrees_cons] using hq

end Clauses

theorem Clauses.spells_filter {c : Clauses}
    (h : ∀ f ∈ c.filter, ∀ s, Condition.render f = .ok s → Spells s f.trees)
    (ht : c.filterText = .ok text) :
    Spells text (clausesTrees (optionalClause "WHERE" (c.filter.map Condition.trees))) := by
  rw [filterText] at ht
  cases hf : c.filter with
  | none =>
    rw [hf] at ht
    cases ht
    exact .empty
  | some f =>
    rw [hf] at ht
    obtain ⟨s, hs, ht⟩ := bind_eq_ok_iff.mp ht
    cases ht
    have hw : Spells "WHERE" [.word "WHERE".toList] := .name rfl
    exact .optional hw (h f hf s hs)

def Grouping.clauseTrees (g : Grouping) : List (String × List Tree) :=
  ("GROUP", .word "BY".toList :: .blank ' ' :: groupedTrees g.fields g.subtotals)
    :: optionalClause "HAVING" (g.having.map Condition.trees)

theorem Grouping.spells {g : Grouping} (hf : ∀ f ∈ g.fields, Spells f.render f.trees)
    (h : ∀ c ∈ g.having, ∀ s, Condition.render c = .ok s → Spells s c.trees)
    (ht : g.render = .ok text) : Spells (" GROUP BY " ++ text) (clausesTrees g.clauseTrees) := by
  have hgr : Spells "GROUP" [.word "GROUP".toList] := .name rfl
  have hby : Spells "BY" [.word "BY".toList] := .name rfl
  have hha : Spells "HAVING" [.word "HAVING".toList] := .name rfl
  have hg : Spells (" GROUP BY " ++ groupedFields g.fields g.subtotals)
      (clause "GROUP" (.word "BY".toList :: .blank ' ' :: groupedTrees g.fields g.subtotals)) := by
    have hl : Spells (groupedFields g.fields g.subtotals) (groupedTrees g.fields g.subtotals) :=
      .groupedFields hf
    have hs := Spells.clause hgr (hby.spaced hl)
    rw [← String.append_assoc, ← String.append_assoc] at hs
    exact hs
  rw [clauseTrees, clausesTrees_cons]
  rw [render_eq] at ht
  split at ht
  · cases ht
  · cases hh : g.having with
    | none =>
      rw [hh] at ht
      cases ht
      rw [← String.append_empty (s := " GROUP BY " ++ _)]
      exact hg.append .empty .nil
    | some c =>
      rw [hh] at ht
      obtain ⟨s, hs, ht⟩ := bind_eq_ok_iff.mp ht
      cases ht
      have hc := hg.append (.optional hha (h c hh s hs)) (.clauses _)
      rw [← String.append_assoc, ← String.append_assoc]
      rwa [← String.append_assoc] at hc

def Clauses.groupTrees (c : Clauses) : List (String × List Tree) :=
  match c.grouping with
  | none => []
  | some g => g.clauseTrees

theorem Clauses.spells_grouping {c : Clauses}
    (h : ∀ g ∈ c.grouping, ∀ s, Grouping.render g = .ok s →
      Spells (" GROUP BY " ++ s) (clausesTrees g.clauseTrees))
    (ht : c.groupingText = .ok text) :
    Spells text (clausesTrees c.groupTrees) := by
  rw [groupingText] at ht
  rw [groupTrees]
  cases hg : c.grouping with
  | none =>
    rw [hg] at ht
    cases ht
    exact .empty
  | some g =>
    rw [hg] at ht
    obtain ⟨s, hs, ht⟩ := bind_eq_ok_iff.mp ht
    cases ht
    exact h g hg s hs

theorem Query.clauseTrees_eq (q : Query) :
    q.clauseTrees =
      ("FROM", [.word (trimBlank q.target).toList])
        :: optionalClause "WHERE" (q.clauses.filter.map Condition.trees)
        ++ q.clauses.groupTrees ++ q.clauses.pageTrees := by
  obtain ⟨target, select, filter, grouping, order, limit, offset, purposes, statistics⟩ := q
  rcases filter with _ | f <;> rcases grouping with _ | ⟨fields, subtotals, _ | having⟩ <;>
    simp only [Query.clauseTrees, Clauses.pageTrees, Clauses.groupTrees, Grouping.clauseTrees,
      Grouping.havingTrees, Option.map_none, Option.map_some, List.append_assoc]

theorem Query.spells {q : Query}
    (ht : Spells (trimBlank q.target) [.word (trimBlank q.target).toList])
    (hs : ∀ f ∈ q.clauses.select, Spells f.renderSelect f.selectTrees)
    (hf : ∀ c ∈ q.clauses.filter, ∀ s, Condition.render c = .ok s → Spells s c.trees)
    (hg : ∀ g ∈ q.clauses.grouping, ∀ s, Grouping.render g = .ok s →
      Spells (" GROUP BY " ++ s) (clausesTrees g.clauseTrees))
    (ho : ∀ o ∈ q.clauses.order, Spells o.field.render o.field.trees)
    (h : q.compose = .ok text) : Spells text q.trees := by
  obtain ⟨-, filter, grouping, hft, hgt, rfl⟩ := compose_ok h
  rw [Query.trees, clauseTrees_eq]
  exact Clauses.spells_assemble hs ht (Clauses.spells_filter hf hft)
    (Clauses.spells_grouping hg hgt) fun o h => (ho o h).ordering

theorem Condition.spells_compare (hf : Spells f.render f.trees) (hv : value.Known)
    (h : Condition.render (.compare f op value) = .ok text) :
    Spells text (Condition.trees (.compare f op value)) := by
  rw [Condition.render, renderComparison] at h
  split at h
  · cases h
  · obtain ⟨s, hs, h⟩ := bind_eq_ok_iff.mp h
    cases h
    rw [Condition.trees]
    exact (hf.spaced op.spells).spaced (hv.spells hs)

theorem Condition.spells_oneOf (hf : Spells f.render f.trees)
    (hv : ∀ v ∈ values, Literal.Known v)
    (h : Condition.render (.oneOf f op values) = .ok text) :
    Spells text (Condition.trees (.oneOf f op values)) := by
  rw [Condition.render] at h
  split at h
  · cases h
  · obtain ⟨texts, hs, h⟩ := bind_eq_ok_iff.mp h
    cases h
    rw [Condition.trees]
    exact .membership hf (.listed (spells_literals hv hs))

theorem Condition.spells_within (hf : Spells f.render f.trees)
    (hq : ∀ s, Query.compose q = .ok s → Spells s q.trees)
    (h : Condition.render (.within f op q) = .ok text) :
    Spells text (Condition.trees (.within f op q)) := by
  rw [Condition.render] at h
  obtain ⟨s, hs, h⟩ := bind_eq_ok_iff.mp h
  cases h
  rw [Condition.trees]
  exact .membership hf (hq s hs)

theorem Condition.spells_group
    (hc : ∀ c ∈ children, ∀ s, Condition.render c = .ok s → Spells s c.trees)
    (h : Condition.render (.group op children negated) = .ok text) :
    Spells text (Condition.trees (.group op children negated)) := by
  rw [Condition.render] at h
  split at h
  · cases h
  · obtain ⟨texts, hs, h⟩ := bind_eq_ok_iff.mp h
    cases h
    rw [Condition.trees]
    exact .joined op negated (spells_parts hc hs)

mutual

/-- References over names of one word each have the trees that are given for them. -/
theorem FieldRef.Over.spelled (hN : ∀ s, N s → IsWord s) :
    ∀ {f}, FieldRef.Over N f → Spells f.render f.trees
  | _, .plain h => .of_isWord (hN _ h)
  | _, .related hp h => .path (fun s hs => hN s (hp s hs)) (hN _ h)
  | _, @FieldRef.Over.call _ _ _ function ha _ =>
    function.spells.grouped (.listed (spells_treesAll fun g hg => (ha g hg).spelled hN))
  | _, .subquery hq h => (Spells.empty.grouped (hq.spelled hN h)).getD_read

theorem Condition.Over.spelled (hN : ∀ s, N s → IsWord s) :
    ∀ {c text}, Condition.Over N c → c.render = .ok text → Spells text c.trees
  | _, _, .compare hf hv, h => Condition.spells_compare (hf.spelled hN) hv h
  | _, _, .oneOf hf hv, h => Condition.spells_oneOf (hf.spelled hN) hv h
  | _, _, .within hf hq, h =>
    Condition.spells_within (hf.spelled hN) (fun _ hs => hq.spelled hN hs) h
  | _, _, .group hc, h => Condition.spells_group (fun c hm _ hs => (hc c hm).spelled hN hs) h

theorem Query.Over.spelled (hN : ∀ s, N s → IsWord s) :
    ∀ {q text}, Query.Over N q → q.compose = .ok text → Spells text q.trees
  | _, _, .mk ht hs hf hg hh ho, h =>
    Query.spells (.of_isWord (hN _ ht))
      (fun f hm => (hs f hm).spells_select hN ((hs f hm).spelled hN))
      (fun c hc _ hs => (hf c hc).spelled hN hs)
      (fun g hm _ hs => Grouping.spells (fun f hi => (hg g hm f hi).spelled hN)
        (fun c hc _ hs => (hh g hm c hc).spelled hN hs) hs)
      (fun o hm => (ho o hm).spelled hN) h

end

theorem FieldRef.Over.spells (h : FieldRef.Over FreeName f) : Spells f.render f.trees :=
  h.spelled fun _ => FreeName.isWord

theorem Condition.Over.spells (h : Condition.Over FreeName c) (hc : c.render = .ok text) :
    Spells text c.trees :=
  h.spelled (fun _ => FreeName.isWord) hc

theorem Query.Over.spells (h : Query.Over FreeName q) (hq : q.compose = .ok text) :
    Spells text q.trees :=
  h.spelled (fun _ => FreeName.isWord) hq

theorem FieldRef.trees_subquery (hq : Query.Over FreeName q) (h : q.compose = .ok text) :
    FieldRef.trees (.subquery ("(" ++ text ++ ")")) = [.group q.trees] := by
  have hr := (Spells.empty.grouped (hq.spells h)).read
  rw [String.empty_append] at hr
  rw [FieldRef.trees, hr]
  rfl

end OrgClient.Soql
