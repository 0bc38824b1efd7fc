import OrgClient.Proofs.Number.Figure
import OrgClient.Proofs.Soql.Composing
import OrgClient.Proofs.Soql.Naming
import OrgClient.Proofs.Soql.Token

namespace OrgClient.Soql

open Text Number
set_option autoImplicit true

/-- A token without what a string holds. -/
def Token.mask : Token → Token
  | .quoted _ => .quoted []
  | t => t

/-- Characters with the same tokens up to what strings hold. -/
def SameTokens (cs ds : List Char) : Prop :=
  ∃ ts us, lex cs = some ts ∧ lex ds = some us ∧ ts.map Token.mask = us.map Token.mask

/-- Texts that can stand for one another before texts with the same tokens. -/
def Alike (s t : String) : Prop :=
  ∀ u v, SameTokens u v → SameTokens (s.toList ++ u) (t.toList ++ v)

/-- The literal with an empty text for its own. -/
def Literal.blanked : Literal → Literal
  | .string _ => .string ""
  | v => v

mutual

/-- The condition with empty strings for its own, also in the queries in it. -/
def Condition.blanked : Condition → Condition
  | .compare f op v => .compare f op v.blanked
  | .oneOf f op vs => .oneOf f op (vs.map Literal.blanked)
  | .within f op q => .within f op q.blanked
  | .group op cs negated => .group op (Condition.blankedAll cs) negated

def Condition.blankedAll : List Condition → List Condition
  | [] => []
  | c :: cs => c.blanked :: Condition.blankedAll cs

def Grouping.blanked : Grouping → Grouping
  | ⟨fields, subtotals, none⟩ => ⟨fields, subtotals, none⟩
  | ⟨fields, subtotals, some c⟩ => ⟨fields, subtotals, some c.blanked⟩

def Query.blanked : Query → Query
  | ⟨target, ⟨select, filter, grouping, order, limit, offset, purposes, statistics⟩⟩ =>
    ⟨target, ⟨select,
      (match filter with
        | none => none
        | some c => some c.blanked),
      (match grouping with
        | none => none
        | some g => some g.blanked), order, limit, offset, purposes, statistics⟩⟩

end

theorem SameTokens.symm (h : SameTokens u v) : SameTokens v u := by
  obtain ⟨ts, us, ht, hu, he⟩ := h
  exact ⟨us, ts, hu, ht, he.symm⟩

theorem SameTokens.trans (h : SameTokens u v) (h' : SameTokens v w) : SameTokens u w := by
  obtain ⟨ts, us, ht, hu, he⟩ := h
  obtain ⟨us', vs, hu', hv, he'⟩ := h'
  rw [hu] at hu'
  cases hu'
  exact ⟨ts, vs, ht, hv, he.trans he'⟩

/-- Puts a character in front of tokens. Quotes are not read like this: they change how the
characters behind them are read. -/
def addChar (c : Char) (ts : List Token) : List Token :=
  if isAsciiBlank c then .blank c :: ts
  else if c = ',' then .comma :: ts
  else if c = '(' then .opening :: ts
  else if c = ')' then .closing :: ts
  else consWord c ts

theorem lex_addChar (hc : c ≠ '\'') (cs : List Char) :
    lex (c :: cs) = (lex cs).map (addChar c) := by
  have ha : addChar c = fun ts => addChar c ts := rfl
  rw [lex]
  · rw [ha]
    simp only [addChar]
    split_ifs <;> rfl
  · exact hc

theorem map_mask_addChar (c : Char) (ts : List Token) :
    (addChar c ts).map Token.mask = addChar c (ts.map Token.mask) := by
  have hw : (consWord c ts).map Token.mask = consWord c (ts.map Token.mask) := by
    cases ts with
    | nil => rfl
    | cons t ts => cases t <;> rfl
  unfold addChar
  split_ifs
  · rfl
  · rfl
  · rfl
  · rfl
  · exact hw

theorem SameTokens.cons (hc : c ≠ '\'') (h : SameTokens u v) :
    SameTokens (c :: u) (c :: v) := by
  obtain ⟨ts, us, ht, hu, he⟩ := h
  refine ⟨addChar c ts, addChar c us, ?_, ?_, ?_⟩
  · rw [lex_addChar hc, ht, Option.map_some]
  · rw [lex_addChar hc, hu, Option.map_some]
  · rw [map_mask_addChar, map_mask_addChar, he]

namespace Alike

theorem of_quoteless (h : Quoteless s) : Alike s s := by
  intro u v huv
  have hs : ∀ cs : List Char, (∀ c ∈ cs, c ≠ '\'') → SameTokens (cs ++ u) (cs ++ v) := by
    intro cs hcs
    induction cs with
    | nil => exact huv
    | cons c cs ih =>
      exact .cons (hcs c List.mem_cons_self) (ih fun d hd => hcs d (List.mem_cons_of_mem _ hd))
  exact hs s.toList h

theorem symm (h : Alike s t) : Alike t s :=
  fun _ _ huv => (h _ _ huv.symm).symm

theorem refl_left (h : Alike s t) : Alike s s :=
  fun _ _ huv => (h _ _ huv).trans (h _ _ (huv.symm.trans huv)).symm

theorem append (h : Alike s t) (h' : Alike s' t') : Alike (s ++ s') (t ++ t') := by
  intro u v huv
  rw [String.toList_append, String.toList_append, List.append_assoc, List.append_assoc]
  exact h _ _ (h' u v huv)

theorem behind (hp : Quoteless p) (h : Alike s t) : Alike (p ++ s) (p ++ t) :=
  (of_quoteless hp).append h

theorem enclosed (hp : Quoteless p) (h : Alike s t) (hq : Quoteless q) :
    Alike (p ++ s ++ q) (p ++ t ++ q) :=
  (h.behind hp).append (.of_quoteless hq)

/-- Strings are alike whatever they hold. -/
theorem quote (s t : String) : Alike (Text.quote s) (Text.quote t) := by
  rintro u v ⟨ts, us, ht, hu, he⟩
  have hq (s : String) (cs : List Char) :
      (Text.quote s).toList ++ cs = '\'' :: (s.toList.flatMap escapeChar ++ '\'' :: cs) := by
    simp [Text.quote, escape]
  rw [hq, hq]
  refine ⟨.quoted (s.toList.flatMap escapeChar) :: ts, .quoted (t.toList.flatMap escapeChar) :: us,
    ?_, ?_, ?_⟩
  · rw [lex_quoted, ht, Option.map_some]
  · rw [lex_quoted, hu, Option.map_some]
  · exact congrArg (Token.quoted [] :: ·) he

theorem intercalate (hm : Alike m m) (h : List.Forall₂ Alike ss ts) :
    Alike (m.intercalate ss) (m.intercalate ts) := by
  induction h with
  | nil => exact of_quoteless (s := "") (by decide)
  | cons hs h ih =>
    cases h with
    | nil =>
      rw [String.intercalate_singleton, String.intercalate_singleton]
      exact hs
    | cons ht h =>
      rw [String.intercalate_cons_cons, String.intercalate_cons_cons]
      exact (hs.append hm).append ih

/-- Texts that are alike to one text have the same tokens. -/
theorem sameTokens (h : Alike r t) (h' : Alike s t) : SameTokens r.toList s.toList := by
  have hn : SameTokens [] [] := ⟨[], [], rfl, rfl, rfl⟩
  have hr := h [] [] hn
  have hs := h' [] [] hn
  rw [List.append_nil, List.append_nil] at hr hs
  exact hr.trans hs.symm

end Alike

theorem Quoteless.of_figures (h : Figures s.toList) : Quoteless s := by
  rintro c hc rfl
  exact absurd (h.figures _ hc) (by decide)

theorem Quoteless.of_relativeDate (h : isRelativeDate s) : Quoteless s := by
  rcases isRelativeDate_cases h with hs | ⟨name, hm, n, hs, hn⟩
  · exact .of_isName (isName_relativeDates s (List.mem_append_left _ hs))
  · have hq := Quoteless.of_isName (isName_relativeDates name (List.mem_append_right _ hm))
    rw [Quoteless, hs]
    refine List.forall_mem_append.mpr ⟨hq, List.forall_mem_cons.mpr ⟨by decide, ?_⟩⟩
    rintro c hc rfl
    exact absurd (hn _ hc) (by decide)

/-- A literal fails like its own blanked, or has a text like it. -/
theorem Literal.Known.agree {v : Literal} (hv : v.Known) :
    Agree Alike v.render v.blanked.render := by
  cases v with
  | string s => exact .ok (.quote s "")
  | integer n => exact .ok (.of_quoteless (.of_figures (.intText n)))
  | number x =>
    change Agree Alike (number x).render (number x).render
    rw [render]
    split
    · exact .ok (.of_quoteless (.of_figures (.double ‹_›)))
    · exact .error _
  | boolean b => cases b <;> exact .ok (.of_quoteless (by decide))
  | date d => exact .ok (.of_quoteless (.of_figures (.date d)))
  | instant t => exact .ok (.of_quoteless (.of_figures (.instant t)))
  | relativeDate s => exact .ok (.of_quoteless (.of_relativeDate hv))
  | null => exact .ok (.of_quoteless (by decide))

theorem agree_literals (hv : ∀ v ∈ vs, Literal.Known v) :
    Agree (List.Forall₂ Alike) (Literal.renderAll vs)
      (Literal.renderAll (vs.map Literal.blanked)) := by
  induction vs with
  | nil => exact .ok .nil
  | cons v vs ih =>
    rw [List.map_cons, Literal.renderAll, Literal.renderAll]
    refine (hv v List.mem_cons_self).agree.bind fun s t hs => ?_
    refine (ih fun u hu => hv u (List.mem_cons_of_mem _ hu)).bind fun ss ts hss => ?_
    exact .ok (.cons hs hss)

theorem Alike.membership (hf : Alike (FieldRef.render f) f.render) (op : Membership)
    (h : Alike s t) : Alike (renderMembership f op s) (renderMembership f op t) := by
  have ho : Alike op.text op.text := by
    cases op <;> exact .of_quoteless (by decide)
  have hs : Alike " " " " := .of_quoteless (by decide)
  have hp : Alike " (" " (" := .of_quoteless (by decide)
  have he : Alike ")" ")" := .of_quoteless (by decide)
  exact ((((hf.append hs).append ho).append hp).append h).append he

theorem agree_compare (hf : Alike (FieldRef.render f) f.render) (hv : value.Known) :
    Agree Alike (Condition.render (.compare f op value))
      (Condition.blanked (.compare f op value)).render := by
  have ho : Alike op.text op.text := by
    cases op <;> exact .of_quoteless (by decide)
  have hs : Alike " " " " := .of_quoteless (by decide)
  have hb : value.blanked.isString = value.isString := by
    cases value <;> rfl
  rw [Condition.blanked, Condition.render, Condition.render, renderComparison, renderComparison, hb]
  split
  · exact .error _
  · exact hv.agree.bind fun s t h => .ok ((((hf.append hs).append ho).append hs).append h)

theorem agree_oneOf (hf : Alike (FieldRef.render f) f.render)
    (hv : ∀ v ∈ values, Literal.Known v) :
    Agree Alike (Condition.render (.oneOf f op values))
      (Condition.blanked (.oneOf f op values)).render := by
  have hc : Alike ", " ", " := .of_quoteless (by decide)
  rw [Condition.blanked, Condition.render, Condition.render, List.isEmpty_map]
  split
  · exact .error _
  · exact (agree_literals hv).bind fun ss ts h => .ok (.membership hf op (.intercalate hc h))

theorem agree_within (hf : Alike (FieldRef.render f) f.render)
    (hq : Agree Alike (Query.compose q) q.blanked.compose) :
    Agree Alike (Condition.render (.within f op q))
      (Condition.blanked (.within f op q)).render := by
  rw [Condition.blanked, Condition.render, Condition.render]
  exact hq.bind fun s t h => .ok (.membership hf op h)

theorem isGroup_blanked (c : Condition) : c.blanked.isGroup = c.isGroup := by
  cases c <;> (rw [Condition.blanked]; rfl)

theorem agree_parts (hc : ∀ c ∈ cs, Agree Alike (Condition.render c) c.blanked.render) :
    Agree (List.Forall₂ Alike) (Condition.renderParts cs)
      (Condition.renderParts (Condition.blankedAll cs)) := by
  induction cs with
  | nil =>
    rw [Condition.blankedAll, Condition.renderParts]
    exact .ok .nil
  | cons c cs ih =>
    rw [Condition.blankedAll, Condition.renderParts, Condition.renderParts, isGroup_blanked]
    refine (hc c List.mem_cons_self).bind fun s t hs => ?_
    refine (ih fun d hd => hc d (List.mem_cons_of_mem _ hd)).bind fun ss ts hss => ?_
    refine .ok (.cons ?_ hss)
    split
    · exact .enclosed (by decide) hs (by decide)
    · exact hs

theorem isEmpty_blankedAll (cs : List Condition) :
    (Condition.blankedAll cs).isEmpty = cs.isEmpty := by
  cases cs with
  | nil => rw [Condition.blankedAll]
  | cons c cs =>
    rw [Condition.blankedAll]
    rfl

theorem agree_group (hc : ∀ c ∈ cs, Agree Alike (Condition.render c) c.blanked.render) :
    Agree Alike (Condition.render (.group op cs negated))
      (Condition.blanked (.group op cs negated)).render := by
  have hs : Alike op.separator op.separator := by
    cases op <;> exact .of_quoteless (by decide)
  rw [Condition.blanked, Condition.render, Condition.render, isEmpty_blankedAll]
  split
  · exact .error _
  · refine (agree_parts hc).bind fun ss ts h => .ok ?_
    cases negated with
    | true => exact .enclosed (by decide) (.intercalate hs h) (by decide)
    | false => exact .intercalate hs h

theorem alike_treesAll (h : ∀ f ∈ fs, Alike (FieldRef.render f) f.render) :
    List.Forall₂ Alike (FieldRef.renderAll fs) (FieldRef.renderAll fs) := by
  induction fs with
  | nil => exact .nil
  | cons f fs ih =>
    rw [FieldRef.renderAll]
    exact .cons (h f List.mem_cons_self) (ih fun g hg => h g (List.mem_cons_of_mem _ hg))

theorem Alike.groupedFields (h : ∀ f ∈ fs, Alike (FieldRef.render f) f.render)
    (s : Option Subtotals) : Alike (groupedFields fs s) (groupedFields fs s) := by
  have hl : Alike (", ".intercalate (FieldRef.renderAll fs)) (", ".intercalate _) :=
    .intercalate (.of_quoteless (by decide)) (alike_treesAll h)
  rcases s with _ | _ | _
  · exact hl
  · exact .enclosed (by decide) hl (by decide)
  · exact .enclosed (by decide) hl (by decide)

theorem agree_grouping {g : Grouping} (hf : ∀ f ∈ g.fields, Alike f.render f.render)
    (hc : ∀ c ∈ g.having, Agree Alike (Condition.render c) c.blanked.render) :
    Agree Alike g.render g.blanked.render := by
  obtain ⟨fields, subtotals, having⟩ := g
  have hg := Alike.groupedFields hf subtotals
  have hh : Alike " HAVING " " HAVING " := .of_quoteless (by decide)
  rw [Grouping.render_eq, Grouping.render_eq]
  cases having with
  | none =>
    rw [Grouping.blanked]
    split
    · exact .error _
    · exact .ok hg
  | some c =>
    rw [Grouping.blanked]
    split
    · exact .error _
    · exact (hc c rfl).bind fun s t h => .ok ((hg.append hh).append h)

theorem Alike.ordering {o : Ordering} (h : Alike o.field.render o.field.render) :
    Alike o.render o.render := by
  have hd (d : Option Direction) : Quoteless (directionText d) := by
    rcases d with _ | _ | _ <;> decide
  have hn (n : Option Nulls) : Quoteless (nullsText n) := by
    rcases n with _ | _ | _ <;> decide
  rw [Ordering.render_eq]
  exact (h.append (.of_quoteless (hd _))).append (.of_quoteless (hn _))

namespace Clauses

variable {c : Clauses}

theorem alike_columns (h : ∀ f ∈ c.select, Alike f.renderSelect f.renderSelect) :
    Alike (", ".intercalate c.columns) (", ".intercalate c.columns) := by
  refine .intercalate (.of_quoteless (by decide)) (List.forall₂_same.mpr ?_)
  intro s hs
  obtain ⟨f, hf, rfl⟩ := List.mem_map.mp (mem_firstOccurrences hs)
  exact h f hf

theorem alike_order (h : ∀ o ∈ c.order, Alike (Ordering.render o) o.render) :
    Alike (", ".intercalate (c.order.map Ordering.render))
      (", ".intercalate (c.order.map Ordering.render)) := by
  refine .intercalate (.of_quoteless (by decide)) (List.forall₂_same.mpr ?_)
  intro s hs
  obtain ⟨o, ho, rfl⟩ := List.mem_map.mp hs
  exact h o ho

theorem alike_purposes (c : Clauses) :
    Alike (" ".intercalate c.purposeTexts) (" ".intercalate c.purposeTexts) := by
  refine .intercalate (.of_quoteless (by decide)) (List.forall₂_same.mpr ?_)
  intro s hs
  obtain ⟨p, _, rfl⟩ := List.mem_map.mp (mem_firstOccurrences hs)
  cases p <;> exact .of_quoteless (by decide)

theorem alike_tail (h : ∀ o ∈ c.order, Alike (Ordering.render o) o.render) :
    Alike c.tail c.tail := by
  have hn (n : Nat) : Alike (natText n) (natText n) :=
    .of_quoteless (.of_figures (.natText n))
  have he : Alike "" "" := .of_quoteless (by decide)
  rw [tail_eq]
  refine .append (.append (.append (.append ?_ ?_) ?_) ?_) ?_
  · rw [orderText]
    split
    · exact he
    · exact .behind (by decide) (alike_order h)
  · cases c.limit with
    | none => exact he
    | some n => exact .behind (by decide) (hn n)
  · cases c.offset with
    | none => exact he
    | some n => exact .behind (by decide) (hn n)
  · rw [purposesText]
    split
    · exact he
    · exact .behind (by decide) c.alike_purposes
  · cases c.statistics with
    | none => exact he
    | some s => cases s <;> exact .of_quoteless (by decide)

theorem alike_assemble (hs : ∀ f ∈ c.select, Alike f.renderSelect f.renderSelect)
    (ht : Quoteless target) (hf : Alike s s') (hg : Alike t t')
    (ho : ∀ o ∈ c.order, Alike (Ordering.render o) o.render) :
    Alike (c.assemble target s t) (c.assemble target s' t') := by
  have hh := ((alike_columns hs).enclosed (p := "SELECT ") (q := " FROM ") (by decide)
    (by decide)).append (.of_quoteless ht)
  exact ((hh.append hf).append hg).append (alike_tail ho)

theorem agree_filterText {c' : Clauses}
    (h : ∀ f ∈ c.filter, Agree Alike (Condition.render f) f.blanked.render)
    (hc : c'.filter = c.filter.map Condition.blanked) :
    Agree Alike c.filterText c'.filterText := by
  rw [filterText, filterText, hc]
  cases hf : c.filter with
  | none => exact .ok (.of_quoteless (by decide))
  | some f => exact (h f hf).bind fun s t hs => .ok (hs.behind (by decide))

theorem agree_groupingText {c' : Clauses}
    (h : ∀ g ∈ c.grouping, Agree Alike (Grouping.render g) g.blanked.render)
    (hc : c'.grouping = c.grouping.map Grouping.blanked) :
    Agree Alike c.groupingText c'.groupingText := by
  rw [groupingText, groupingText, hc]
  cases hg : c.grouping with
  | none => exact .ok (.of_quoteless (by decide))
  | some g => exact (h g hg).bind fun s t hs => .ok (hs.behind (by decide))

end Clauses

theorem Query.blanked_eq (q : Query) :
    q.blanked = ⟨q.target, { q.clauses with
      filter := q.clauses.filter.map Condition.blanked
      grouping := q.clauses.grouping.map Grouping.blanked }⟩ := by
  obtain ⟨target, select, filter, grouping, order, limit, offset, purposes, statistics⟩ := q
  cases filter <;> cases grouping <;> rw [Query.blanked] <;> rfl

theorem agree_query {q : Query} (ht : Quoteless (trimBlank q.target))
    (hs : ∀ f ∈ q.clauses.select, Alike f.renderSelect f.renderSelect)
    (hf : ∀ c ∈ q.clauses.filter, Agree Alike (Condition.render c) c.blanked.render)
    (hg : ∀ g ∈ q.clauses.grouping, Agree Alike (Grouping.render g) g.blanked.render)
    (ho : ∀ o ∈ q.clauses.order, Alike o.field.render o.field.render) :
    Agree Alike q.compose q.blanked.compose := by
  rw [Query.compose_eq, Query.compose_eq, Query.blanked_eq]
  split
  · exact .error _
  · split
    · exact .error _
    · refine (Clauses.agree_filterText hf rfl).bind fun s s' h => ?_
      refine (Clauses.agree_groupingText hg rfl).bind fun t t' h' => ?_
      exact .ok (Clauses.alike_assemble hs ht h h' fun o hm => .ordering (ho o hm))

theorem Alike.path {path : List String} (hp : ∀ s ∈ path, Quoteless s) (h : Quoteless field) :
    Alike (FieldRef.render (.related path field)) (FieldRef.render (.related path field)) := by
  have hd : Alike "." "." := .of_quoteless (by decide)
  have hs : List.Forall₂ Alike path path :=
    List.forall₂_same.mpr fun s hs => .of_quoteless (hp s hs)
  exact ((Alike.intercalate hd hs).append hd).append (.of_quoteless h)

theorem Alike.call (function : Function) (h : ∀ f ∈ fs, Alike (FieldRef.render f) f.render)
    (label : Option String) :
    Alike (FieldRef.render (.call function fs label))
      (FieldRef.render (.call function fs label)) := by
  have hc : Alike ", " ", " := .of_quoteless (by decide)
  have ho : Alike "(" "(" := .of_quoteless (by decide)
  have he : Alike ")" ")" := .of_quoteless (by decide)
  have hf : Alike function.name function.name := .of_quoteless (.of_isName function.isName_name)
  exact ((hf.append ho).append (.intercalate hc (alike_treesAll h))).append he

theorem Alike.subquery (hq : Agree Alike (Query.compose q) q.blanked.compose)
    (h : q.compose = .ok text) : Alike ("(" ++ text ++ ")") ("(" ++ text ++ ")") := by
  rw [h] at hq
  cases hb : q.blanked.compose with
  | error e =>
    rw [hb] at hq
    cases hq
  | ok t =>
    rw [hb] at hq
    cases hq with
    | ok ht => exact ht.refl_left.enclosed (by decide) (by decide)

theorem FieldRef.Over.alike_select (h : FieldRef.Over Quoteless f)
    (hs : Alike f.render f.render) : Alike f.renderSelect f.renderSelect := by
  cases h with
  | plain h => exact hs
  | related hp h => exact hs
  | @call fs label function ha hl =>
    cases label with
    | none => exact hs
    | some s =>
      have hb : Alike " " " " := .of_quoteless (by decide)
      exact (hs.append hb).append (.of_quoteless (hl s rfl))
  | subquery hq h => exact hs

mutual

theorem FieldRef.Over.alike : ∀ {f}, FieldRef.Over Quoteless f → Alike f.render f.render
  | _, .plain h => .of_quoteless h
  | _, .related hp h => .path hp h
  | _, .call ha _ => .call _ (fun g hg => (ha g hg).alike) _
  | _, .subquery hq h => .subquery hq.agree h

/-- A condition fails like its own blanked, or has a text like it. -/
theorem Condition.Over.agree :
    ∀ {c}, Condition.Over Quoteless c → Agree Alike c.render c.blanked.render
  | _, .compare hf hv => agree_compare hf.alike hv
  | _, .oneOf hf hv => agree_oneOf hf.alike hv
  | _, .within hf hq => agree_within hf.alike hq.agree
  | _, .group hc => agree_group fun c hm => (hc c hm).agree

theorem Query.Over.agree :
    ∀ {q}, Query.Over Quoteless q → Agree Alike q.compose q.blanked.compose
  | _, .mk ht hs hf hg hh ho =>
    agree_query ht (fun f hm => (hs f hm).alike_select (hs f hm).alike)
      (fun c hc => (hf c hc).agree)
      (fun g hm => agree_grouping (fun f hi => (hg g hm f hi).alike)
        fun c hc => (hh g hm c hc).agree)
      (fun o hm => (ho o hm).alike)

end

/-- Queries that differ only in what their strings hold fail in the same way, or have texts with the
same tokens up to what their strings hold. -/
theorem Query.compose_agree_of_blanked_eq (h : Query.Over Quoteless q)
    (h' : Query.Over Quoteless q') (hb : q.blanked = q'.blanked) :
    Agree (fun s t => SameTokens s.toList t.toList) q.compose q'.compose := by
  have hq := h.agree
  rw [hb] at hq
  exact hq.join h'.agree fun s t r hs ht => hs.sameTokens ht

def accountsNamed (name : String) : Query :=
  ⟨"Account", (Clauses.empty.addFields [.plain "Id"]).withFilter
    (.oneOf (.plain "Name") .isIn [.string name])⟩

theorem accountsNamed_over (name : String) : Query.Over Quoteless (accountsNamed name) := by
  have ht : Quoteless (trimBlank "Account") := by
    decide
  refine .mk ht ?_ ?_ ?_ ?_ ?_
  · exact List.forall_mem_singleton.mpr (.plain (by decide))
  · intro c hc
    cases hc
    exact .oneOf (.plain (by decide)) (List.forall_mem_singleton.mpr trivial)
  · exact fun g hg => nomatch hg
  · exact fun g hg => nomatch hg
  · exact fun o ho => nomatch ho

theorem accountsNamed_agree_on_quotes :
    (accountsNamed "') OR Name != ('").blanked = (accountsNamed "x").blanked ∧
      Agree (fun s t => SameTokens s.toList t.toList)
        (accountsNamed "') OR Name != ('").compose (accountsNamed "x").compose :=
  ⟨rfl, Query.compose_agree_of_blanked_eq (accountsNamed_over _) (accountsNamed_over _) rfl⟩

end OrgClient.Soql
