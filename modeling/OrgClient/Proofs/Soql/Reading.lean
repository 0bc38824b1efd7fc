import OrgClient.Proofs.Soql.Reserved

namespace OrgClient.Soql

open Text Number
set_option autoImplicit true

theorem Quiet.ne_comma (h : Quiet ts) : ∀ t ∈ ts, ¬t = .comma := by
  rintro t ht rfl
  exact absurd (h _ ht) Bool.false_ne_true

theorem listed_cons_cons (ts us : List Tree) (tss : List (List Tree)) :
    listed (ts :: us :: tss) = ts ++ .comma :: .blank ' ' :: listed (us :: tss) := by
  rw [listed, List.intercalate_cons_cons, List.append_assoc]
  rfl

theorem comma_mem_listed (ts us : List Tree) (tss : List (List Tree)) :
    .comma ∈ listed (ts :: us :: tss) := by
  rw [listed_cons_cons]
  exact List.mem_append_right _ List.mem_cons_self

/-- Lists of trees without commas are known from the trees with commas between them. -/
theorem listed_inj (h : listed tss = listed uss) (ht : ∀ ts ∈ tss, ∀ t ∈ ts, ¬t = .comma)
    (hu : ∀ us ∈ uss, ∀ t ∈ us, ¬t = .comma) (htn : tss ≠ []) (hun : uss ≠ []) : tss = uss := by
  induction tss generalizing uss with
  | nil => exact absurd rfl htn
  | cons ts tss ih =>
    cases uss with
    | nil => exact absurd rfl hun
    | cons us uss =>
      have hts := ht ts List.mem_cons_self
      have hus := hu us List.mem_cons_self
      cases tss with
      | nil =>
        cases uss with
        | nil =>
          rw [listed, listed, List.intercalate_singleton, List.intercalate_singleton] at h
          rw [h]
        | cons vs uss =>
          have hc := comma_mem_listed us vs uss
          rw [← h, listed, List.intercalate_singleton] at hc
          exact absurd rfl (hts _ hc)
      | cons vs tss =>
        cases uss with
        | nil =>
          have hc := comma_mem_listed ts vs tss
          rw [h, listed, List.intercalate_singleton] at hc
          exact absurd rfl (hus _ hc)
        | cons ws uss =>
          rw [listed_cons_cons, listed_cons_cons] at h
          obtain ⟨rfl, h⟩ := append_inj_of_head h hts hus
            (fun t h => (Option.some.inj h).symm) fun t h => (Option.some.inj h).symm
          have hl : listed (vs :: tss) = listed (ws :: uss) := by
            simpa using h
          rw [ih hl (fun us h => ht us (List.mem_cons_of_mem _ h))
            (fun us h => hu us (List.mem_cons_of_mem _ h)) (List.cons_ne_nil _ _)
            (List.cons_ne_nil _ _)]

theorem listed_inj_of_ne_nil (h : listed tss = listed uss)
    (ht : ∀ ts ∈ tss, ts ≠ [] ∧ ∀ t ∈ ts, ¬t = .comma)
    (hu : ∀ us ∈ uss, us ≠ [] ∧ ∀ t ∈ us, ¬t = .comma) : tss = uss := by
  have hn {tss : List (List Tree)} (ht : ∀ ts ∈ tss, ts ≠ [] ∧ ∀ t ∈ ts, ¬t = .comma)
      (h : listed tss = []) : tss = [] := by
    rcases tss with _ | ⟨ts, _ | ⟨us, tss⟩⟩
    · rfl
    · rw [listed, List.intercalate_singleton] at h
      exact absurd h (ht ts List.mem_cons_self).1
    · exact absurd (h ▸ comma_mem_listed ts us tss) List.not_mem_nil
  by_cases htn : tss = []
  · rw [htn] at h
    rw [htn, hn hu h.symm]
  · by_cases hun : uss = []
    · rw [hun] at h
      exact absurd (hn ht h) htn
    · exact listed_inj h (fun ts hm => (ht ts hm).2) (fun us hm => (hu us hm).2) htn hun

theorem eq_of_forall₂_spells (h : List.Forall₂ Spells ss tss) (h' : List.Forall₂ Spells ss' tss) :
    ss = ss' := by
  induction h generalizing ss' with
  | nil =>
    cases h'
    rfl
  | cons hs h ih =>
    cases h' with
    | cons hs' h' => rw [hs.text_eq hs', ih h']

/-- Words behind which nothing but words follows. -/
def lastOpeners : List String :=
  ["FOR", "UPDATE"]

/-- What may follow the clauses up to `OFFSET`. -/
def Closes (ts : List Tree) : Prop :=
  ts = [] ∨ ∃ k ∈ lastOpeners, ∃ us, ts = .blank ' ' :: .word k.toList :: us

/-- Words of the clauses up to `OFFSET`. -/
def earlyOpeners : List String :=
  ["FROM", "WHERE", "GROUP", "HAVING", "ORDER", "LIMIT", "OFFSET"]

/-- Clauses up to `OFFSET` whose trees open no clause. -/
structure Framed (ps : List (String × List Tree)) : Prop where
  early : ∀ p ∈ ps, p.1 ∈ earlyOpeners
  inner : ∀ p ∈ ps, Inner p.2

theorem Framed.nil : Framed [] :=
  ⟨fun _ hp => absurd hp List.not_mem_nil, fun _ hp => absurd hp List.not_mem_nil⟩

theorem Framed.cons (hk : k ∈ earlyOpeners) (ht : Inner ts) (h : Framed ps) :
    Framed ((k, ts) :: ps) :=
  ⟨List.forall_mem_cons.mpr ⟨hk, h.early⟩, List.forall_mem_cons.mpr ⟨ht, h.inner⟩⟩

theorem Framed.append (h : Framed ps) (h' : Framed qs) : Framed (ps ++ qs) :=
  ⟨List.forall_mem_append.mpr ⟨h.early, h'.early⟩, List.forall_mem_append.mpr ⟨h.inner, h'.inner⟩⟩

theorem Framed.optional (hk : k ∈ earlyOpeners) (h : ∀ ts ∈ b, Inner ts) :
    Framed (optionalClause k b) := by
  cases b with
  | none => exact .nil
  | some ts => exact .cons hk (h ts rfl) .nil

theorem Framed.tail (h : Framed (p :: ps)) : Framed ps :=
  ⟨fun q hq => h.early q (List.mem_cons_of_mem _ hq),
    fun q hq => h.inner q (List.mem_cons_of_mem _ hq)⟩

theorem isAmong_of_lastOpeners : ∀ k ∈ lastOpeners, isAmong clauseWords k.toList := by
  decide

theorem isAmong_of_earlyOpeners : ∀ k ∈ earlyOpeners, isAmong clauseWords k.toList := by
  decide

theorem not_lastOpeners_of_early : ∀ k ∈ earlyOpeners, k ∉ lastOpeners := by
  decide

/-- Trees that end or go on with a clause. -/
def Cut (ts : List Tree) : Prop :=
  ts = [] ∨ ∃ k, isAmong clauseWords k ∧ ∃ us, ts = .blank ' ' :: .word k :: us

theorem Closes.cut (h : Closes r) : Cut r := by
  rcases h with rfl | ⟨k, hk, us, rfl⟩
  · exact .inl rfl
  · exact .inr ⟨_, isAmong_of_lastOpeners k hk, us, rfl⟩

theorem Framed.cut (h : Framed ps) (hr : Closes r) : Cut (clausesTrees ps ++ r) := by
  cases ps with
  | nil => exact hr.cut
  | cons p ps =>
    exact .inr ⟨_, isAmong_of_earlyOpeners _ (h.early p List.mem_cons_self), _, rfl⟩

theorem Inner.eq_append (h : Inner (a ++ b)) (hb : Cut b) : b = [] := by
  rcases hb with rfl | ⟨k, hk, us, rfl⟩
  · rfl
  · have hm : .word k ∈ a ++ .blank ' ' :: .word k :: us :=
      List.mem_append_right _ (List.mem_cons_of_mem _ List.mem_cons_self)
    have ho : isAmong clauseWords k = false := h _ hm
    rw [hk] at ho
    cases ho

/-- Trees are cut where a clause opens. -/
theorem cut_inj (h : a ++ b = a' ++ b') (ha : Inner a) (ha' : Inner a') (hb : Cut b)
    (hb' : Cut b') : a = a' ∧ b = b' := by
  have hs (ts : List Tree) (w : List Char) (us : List Tree) :
      ts ++ .blank ' ' :: .word w :: us = (ts ++ [.blank ' ']) ++ .word w :: us := by
    rw [List.append_assoc]
    rfl
  have hn {ts : List Tree} (ht : Inner ts) : ∀ t ∈ ts ++ [.blank ' '], ¬t.opens = true := by
    intro t hm
    rw [(ht.append (.cons rfl .nil)) t hm]
    exact Bool.false_ne_true
  have ho {w : List Char} {us : List Tree} (hw : isAmong clauseWords w) :
      ∀ t ∈ (Tree.word w :: us).head?, t.opens = true := by
    intro t ht
    cases ht
    exact hw
  rcases hb with rfl | ⟨k, hk, us, rfl⟩
  · rw [List.append_nil] at h
    rw [h] at ha
    have he := ha.eq_append hb'
    rw [he, List.append_nil] at h
    exact ⟨h, he.symm⟩
  · rcases hb' with rfl | ⟨k', hk', us', rfl⟩
    · rw [List.append_nil] at h
      rw [← h] at ha'
      cases ha'.eq_append (.inr ⟨k, hk, us, rfl⟩)
    · -- The blank in front of a clause is cut off with what stands before it.
      rw [hs, hs a'] at h
      obtain ⟨he, h⟩ := append_inj_of_head h (hn ha) (hn ha') (ho hk) (ho hk')
      exact ⟨List.append_cancel_right he, congrArg _ h⟩

/-- A clause up to `OFFSET` does not begin like what follows it. -/
theorem Closes.ne_clauses (hr : Closes r) (hp : Framed (p :: ps)) :
    r ≠ clausesTrees (p :: ps) ++ us := by
  intro h
  rw [clausesTrees_cons, clause] at h
  rcases hr with rfl | ⟨k, hk, us, rfl⟩
  · cases h
  · have hw := Tree.word.inj (List.cons.inj (List.cons.inj h).2).1
    rw [String.toList_inj.mp hw] at hk
    exact not_lastOpeners_of_early _ (hp.early p List.mem_cons_self) hk

/-- Columns, clauses and last words are known from the trees they make together. -/
theorem clausesTrees_inj (h : a ++ (clausesTrees ps ++ r) = a' ++ (clausesTrees ps' ++ r'))
    (ha : Inner a) (ha' : Inner a') (hp : Framed ps) (hp' : Framed ps') (hr : Closes r)
    (hr' : Closes r') : a = a' ∧ ps = ps' ∧ r = r' := by
  -- What stands before the clauses varies: the columns first, then the body of each clause.
  induction ps generalizing a a' ps' with
  | nil =>
    obtain ⟨rfl, hc⟩ := cut_inj h ha ha' (hp.cut hr) (hp'.cut hr')
    cases ps' with
    | nil => exact ⟨rfl, rfl, hc⟩
    | cons p' ps' => exact absurd hc (hr.ne_clauses hp')
  | cons p ps ih =>
    obtain ⟨rfl, hc⟩ := cut_inj h ha ha' (hp.cut hr) (hp'.cut hr')
    cases ps' with
    | nil => exact absurd hc.symm (hr'.ne_clauses hp)
    | cons p' ps' =>
      rw [clausesTrees_cons, clausesTrees_cons, clause, clause] at hc
      simp only [List.cons_append, List.append_assoc, List.cons.injEq, Tree.word.injEq,
        String.toList_inj, true_and] at hc
      obtain ⟨hb, rfl, rfl⟩ := ih hc.2 (hp.inner p List.mem_cons_self)
        (hp'.inner p' List.mem_cons_self) hp.tail hp'.tail
      exact ⟨rfl, congrArg (· :: ps) (Prod.ext hc.1 hb), rfl⟩

theorem Inner.numberTrees (n : Nat) : Inner (numberTrees n) :=
  (Quiet.word (isReserved_of_figures (.natText n))).inner

theorem mem_treesAll (h : ts ∈ FieldRef.treesAll fs) : ∃ f ∈ fs, ts = f.trees := by
  induction fs with
  | nil =>
    rw [FieldRef.treesAll] at h
    cases h
  | cons f fs ih =>
    rw [FieldRef.treesAll] at h
    rcases List.mem_cons.mp h with rfl | h
    · exact ⟨f, List.mem_cons_self, rfl⟩
    · obtain ⟨g, hg, he⟩ := ih h
      exact ⟨g, List.mem_cons_of_mem _ hg, he⟩

theorem quiet_treesAll (h : ∀ f ∈ fs, FieldRef.Over FreeName f) :
    ∀ ts ∈ FieldRef.treesAll fs, Quiet ts := by
  intro ts hts
  obtain ⟨f, hf, rfl⟩ := mem_treesAll hts
  exact (h f hf).quiet

theorem Inner.grouped (h : ∀ f ∈ fs, FieldRef.Over FreeName f) (s : Option Subtotals) :
    Inner (groupedTrees fs s) := by
  rcases s with _ | _ | _
  · exact .listed fun ts hts => (quiet_treesAll h ts hts).inner
  · exact .cons (by decide) (.cons rfl .nil)
  · exact .cons (by decide) (.cons rfl .nil)

theorem Quiet.words (h : ∀ w ∈ ws, isReserved (String.toList w) = false) :
    Quiet (wordTrees ws) := by
  intro t ht
  obtain ⟨w, hw, ht⟩ := List.mem_flatMap.mp ht
  rcases List.mem_cons.mp ht with rfl | ht
  · rfl
  · rw [List.mem_singleton.mp ht, Tree.isQuiet, h w hw]
    rfl

theorem Quiet.ordering {o : Ordering} (h : FieldRef.Over FreeName o.field) : Quiet o.trees := by
  refine h.quiet.append (.words ?_)
  rcases o.direction with _ | _ | _ <;> rcases o.nulls with _ | _ | _ <;> decide

namespace Query.Over

variable {q : Query}

theorem fields (h : Query.Over FreeName q) :
    ∀ g ∈ q.clauses.grouping, ∀ f ∈ g.fields, FieldRef.Over FreeName f := by
  cases h with
  | mk _ _ _ hg _ _ => exact hg

theorem inner_order (h : Query.Over FreeName q) : ∀ ts ∈ q.clauses.orderTrees, Inner ts := by
  cases h with
  | mk _ _ _ _ _ ho =>
    intro ts hts
    rw [Clauses.orderTrees] at hts
    split at hts
    · cases hts
    · cases hts
      refine .cons (by decide) (.cons rfl (.listed ?_))
      intro ts hts
      obtain ⟨o, hm, rfl⟩ := List.mem_map.mp hts
      exact (Quiet.ordering (ho o hm)).inner

theorem framed_page (h : Query.Over FreeName q) : Framed q.clauses.pageTrees := by
  have hn : ∀ n : Option Nat, ∀ ts ∈ n.map numberTrees, Inner ts := by
    intro n ts hts
    obtain ⟨m, _, rfl⟩ := Option.map_eq_some_iff.mp hts
    exact .numberTrees m
  exact ((Framed.optional (by decide) h.inner_order).append
    (.optional (by decide) (hn _))).append (.optional (by decide) (hn _))

theorem framed (h : Query.Over FreeName q) : Framed q.clauseTrees := by
  have hg := h.fields
  have hp := h.framed_page
  rw [clauseTrees_eq]
  cases h with
  | mk ht _ hf _ hh _ =>
    refine Framed.append (Framed.append (.cons (by decide) (Quiet.word ht.free).inner ?_) ?_) hp
    · apply Framed.optional (by decide)
      intro ts hts
      obtain ⟨c, hc, rfl⟩ := Option.map_eq_some_iff.mp hts
      exact (hf c hc).inner
    · rw [Clauses.groupTrees]
      split
      · exact .nil
      · rename_i g hgr
        have hfs := Inner.grouped (hg g hgr) g.subtotals
        refine .cons (by decide) (.cons (by decide) (.cons rfl hfs)) (.optional (by decide) ?_)
        intro ts hts
        obtain ⟨c, hc, rfl⟩ := Option.map_eq_some_iff.mp hts
        exact (hh g hgr c hc).inner

end Query.Over

theorem Clauses.mem_columns {c : Clauses} (h : ∀ f ∈ c.select, FieldRef.Over FreeName f)
    (hs : s ∈ c.columns) : Spells s ((read s).getD []) ∧ Quiet ((read s).getD []) := by
  obtain ⟨f, hf, rfl⟩ := List.mem_map.mp (mem_firstOccurrences hs)
  have hsp := (h f hf).spells_select (fun _ => FreeName.isWord) (h f hf).spells
  rw [hsp.read]
  exact ⟨hsp, (h f hf).quiet_select⟩

theorem Clauses.closes (c : Clauses) : Closes (wordTrees c.lastWords) := by
  rw [lastWords, purposeWords]
  split
  · rw [statisticsWords]
    split
    · exact .inl rfl
    · exact .inr ⟨"UPDATE", by decide, _, rfl⟩
  · exact .inr ⟨"FOR", by decide, _, rfl⟩

/-- Columns, clauses and last words of a query are known from its trees. -/
theorem Query.Over.trees_inj (h : Query.Over FreeName q) (h' : Query.Over FreeName q')
    (ht : q.trees = q'.trees) :
    q.clauses.columnTrees = q'.clauses.columnTrees ∧ q.clauseTrees = q'.clauseTrees ∧
      wordTrees q.clauses.lastWords = wordTrees q'.clauses.lastWords := by
  have hi {q : Query} (h : Query.Over FreeName q) : Inner q.clauses.columnTrees := by
    apply Inner.listed
    intro ts hts
    obtain ⟨s, hs, rfl⟩ := List.mem_map.mp hts
    cases h with
    | mk _ hsel _ _ _ _ => exact (Clauses.mem_columns hsel hs).2.inner
  rw [Query.trees, Query.trees, Clauses.trees, Clauses.trees] at ht
  simp only [List.cons_append, List.append_assoc, List.cons.injEq, true_and] at ht
  exact clausesTrees_inj ht (hi h) (hi h') h.framed h'.framed q.clauses.closes q'.clauses.closes

theorem lookup_pair (k k' : String) (ts : List Tree) (ps : List (String × List Tree)) :
    ((k, ts) :: ps).lookup k' = if k' = k then some ts else ps.lookup k' := by
  rw [List.lookup_cons]
  by_cases h : k' = k
  · rw [if_pos h, beq_iff_eq.mpr h]
  · rw [if_neg h, beq_false_of_ne h]

theorem lookup_optionalClause (k k' : String) (b : Option (List Tree)) :
    (optionalClause k b).lookup k' = if k' = k then b else none := by
  cases b with
  | none =>
    rw [ite_self]
    rfl
  | some ts => exact lookup_pair k k' ts []

theorem Clauses.lookup_groupTrees (c : Clauses) (k : String) :
    c.groupTrees.lookup k =
      if k = "GROUP" then
        c.grouping.map fun g =>
          .word "BY".toList :: .blank ' ' :: groupedTrees g.fields g.subtotals
      else if k = "HAVING" then c.grouping.bind fun g => g.having.map Condition.trees
      else none := by
  rw [groupTrees]
  cases c.grouping with
  | none =>
    rw [Option.map_none, Option.bind_none, ite_self, ite_self]
    rfl
  | some g =>
    change g.clauseTrees.lookup k = _
    rw [Grouping.clauseTrees, lookup_pair, lookup_optionalClause]
    rfl

theorem Query.lookup_clauseTrees (q : Query) (k : String) :
    q.clauseTrees.lookup k =
      if k = "FROM" then some [.word (trimBlank q.target).toList]
      else if k = "WHERE" then q.clauses.filter.map Condition.trees
      else if k = "GROUP" then
        q.clauses.grouping.map fun g =>
          .word "BY".toList :: .blank ' ' :: groupedTrees g.fields g.subtotals
      else if k = "HAVING" then
        q.clauses.grouping.bind fun g => g.having.map Condition.trees
      else if k = "ORDER" then q.clauses.orderTrees
      else if k = "LIMIT" then q.clauses.limit.map numberTrees
      else if k = "OFFSET" then q.clauses.offset.map numberTrees
      else none := by
  rw [clauseTrees_eq]
  simp only [Clauses.pageTrees, List.lookup_append, List.cons_append, lookup_pair,
    lookup_optionalClause, Clauses.lookup_groupTrees]
  split_ifs <;> simp_all

theorem numberTrees_inj (h : numberTrees m = numberTrees n) : m = n :=
  natText_inj (String.toList_inj.mp (Tree.word.inj (List.cons.inj h).1))

/-- What the clauses of a query say, from its table to its offset. -/
theorem Query.clauseTrees_inj {q q' : Query} (h : q.clauseTrees = q'.clauseTrees) :
    trimBlank q.target = trimBlank q'.target ∧
      q.clauses.filter.map Condition.trees = q'.clauses.filter.map Condition.trees ∧
      q.clauses.grouping.map (fun g => groupedTrees g.fields g.subtotals) =
        q'.clauses.grouping.map (fun g => groupedTrees g.fields g.subtotals) ∧
      (q.clauses.grouping.bind fun g => g.having.map Condition.trees) =
        (q'.clauses.grouping.bind fun g => g.having.map Condition.trees) ∧
      q.clauses.orderTrees = q'.clauses.orderTrees ∧
      q.clauses.limit = q'.clauses.limit ∧ q.clauses.offset = q'.clauses.offset := by
  have hl (k : String) := congrArg (List.lookup k) h
  simp only [lookup_clauseTrees] at hl
  have hf := hl "FROM"
  have hw := hl "WHERE"
  have hg := hl "GROUP"
  have hh := hl "HAVING"
  have ho := hl "ORDER"
  have hli := hl "LIMIT"
  have hof := hl "OFFSET"
  simp only [String.reduceEq, if_true, if_false] at hf hw hg hh ho hli hof
  refine ⟨?_, hw, ?_, hh, ho, ?_, ?_⟩
  · exact String.toList_inj.mp (Tree.word.inj (List.cons.inj (Option.some.inj hf)).1)
  · have hc := congrArg (Option.map (List.drop 2)) hg
    simpa [Option.map_map, Function.comp_def] using hc
  · exact Option.map_injective (fun _ _ => numberTrees_inj) hli
  · exact Option.map_injective (fun _ _ => numberTrees_inj) hof

structure GroupParts where
  fields : List String
  subtotals : Option Subtotals
  having : Option (Except Error String)

structure OrderParts where
  field : String
  direction : Option Direction
  nulls : Option Nulls
  deriving DecidableEq, Repr

/-- What a query says, with its columns, conditions and fields in text form. -/
structure Parts where
  columns : List String
  target : String
  filter : Option (Except Error String)
  grouping : Option GroupParts
  order : List OrderParts
  limit : Option Nat
  offset : Option Nat
  purposes : List String
  statistics : Option Statistics

def Grouping.parts (g : Grouping) : GroupParts where
  fields := FieldRef.renderAll g.fields
  subtotals := g.subtotals
  having := g.having.map Condition.render

def Ordering.parts (o : Ordering) : OrderParts where
  field := o.field.render
  direction := o.direction
  nulls := o.nulls

def Query.parts (q : Query) : Parts where
  columns := q.clauses.columns
  target := trimBlank q.target
  filter := q.clauses.filter.map Condition.render
  grouping := q.clauses.grouping.map Grouping.parts
  order := q.clauses.order.map Ordering.parts
  limit := q.clauses.limit
  offset := q.clauses.offset
  purposes := q.clauses.purposeTexts
  statistics := q.clauses.statistics

/-- A condition over free names that has a text. -/
structure Condition.Sound (c : Condition) : Prop where
  names : Condition.Over FreeName c
  ok : ∃ text, c.render = .ok text

theorem Condition.Sound.render_eq (h : Condition.Sound c) (h' : Condition.Sound c')
    (ht : c.trees = c'.trees) : c.render = c'.render := by
  obtain ⟨s, hs⟩ := h.ok
  obtain ⟨s', hs'⟩ := h'.ok
  have hsp := h.names.spells hs
  rw [ht] at hsp
  rw [hs, hs', hsp.text_eq (h'.names.spells hs')]

theorem map_render_eq {a a' : Option Condition} (h : ∀ c ∈ a, c.Sound) (h' : ∀ c ∈ a', c.Sound)
    (ht : a.map Condition.trees = a'.map Condition.trees) :
    a.map Condition.render = a'.map Condition.render := by
  cases a with
  | none =>
    cases a' with
    | none => rfl
    | some c' => cases ht
  | some c =>
    cases a' with
    | none => cases ht
    | some c' =>
      exact congrArg some ((h c rfl).render_eq (h' c' rfl) (Option.some.inj ht))

theorem FieldRef.Over.trees_ne_subtotals (h : FieldRef.Over FreeName f) (w : String)
    (hw : ∀ function : Function, function.name ≠ w) (ts : List Tree) :
    f.trees ≠ [.word w.toList, .group ts] := by
  intro he
  cases h with
  | plain h => cases (List.cons.inj he).2
  | related hp h => cases (List.cons.inj he).2
  | call ha hl => exact hw _ (String.toList_inj.mp (Tree.word.inj (List.cons.inj he).1))
  | subquery hq h =>
    rw [trees_subquery hq h] at he
    cases he

theorem listed_ne_subtotals (h : ∀ f ∈ fs, FieldRef.Over FreeName f) (w : String)
    (hw : ∀ function : Function, function.name ≠ w) (ts : List Tree) :
    listed (FieldRef.treesAll fs) ≠ [.word w.toList, .group ts] := by
  intro he
  rcases fs with _ | ⟨f, _ | ⟨g, fs⟩⟩
  · cases he
  · rw [FieldRef.treesAll, FieldRef.treesAll, listed, List.intercalate_singleton] at he
    exact (h f List.mem_cons_self).trees_ne_subtotals w hw ts he
  · have hc := comma_mem_listed f.trees g.trees (FieldRef.treesAll fs)
    rw [FieldRef.treesAll, FieldRef.treesAll] at he
    rw [he] at hc
    rcases List.mem_cons.mp hc with hc | hc
    · cases hc
    · cases List.mem_singleton.mp hc

theorem treesAll_ne_nil (h : fs ≠ []) : FieldRef.treesAll fs ≠ [] := by
  cases fs with
  | nil => exact absurd rfl h
  | cons f fs =>
    rw [FieldRef.treesAll]
    exact List.cons_ne_nil _ _

theorem Function.name_ne_cube (function : Function) : function.name ≠ "CUBE" := by
  cases function <;> decide

theorem Function.name_ne_rollup (function : Function) : function.name ≠ "ROLLUP" := by
  cases function <;> decide

theorem groupedTrees_inj (h : ∀ f ∈ fs, FieldRef.Over FreeName f)
    (h' : ∀ f ∈ fs', FieldRef.Over FreeName f) (hn : fs ≠ []) (hn' : fs' ≠ [])
    (ht : groupedTrees fs s = groupedTrees fs' s') :
    FieldRef.renderAll fs = FieldRef.renderAll fs' ∧ s = s' := by
  have hl (hl : listed (FieldRef.treesAll fs) = listed (FieldRef.treesAll fs')) :
      FieldRef.renderAll fs = FieldRef.renderAll fs' := by
    have hs := spells_treesAll fun f hf => (h f hf).spells
    rw [listed_inj hl (fun ts hm => (quiet_treesAll h ts hm).ne_comma)
      (fun ts hm => (quiet_treesAll h' ts hm).ne_comma) (treesAll_ne_nil hn)
      (treesAll_ne_nil hn')] at hs
    exact eq_of_forall₂_spells hs (spells_treesAll fun f hf => (h' f hf).spells)
  have hg (hg : [Tree.group (listed (FieldRef.treesAll fs))] =
      [.group (listed (FieldRef.treesAll fs'))]) :
      FieldRef.renderAll fs = FieldRef.renderAll fs' :=
    hl (Tree.group.inj (List.cons.inj hg).1)
  rcases s with _ | _ | _ <;> rcases s' with _ | _ | _
  · exact ⟨hl ht, rfl⟩
  · exact absurd ht (listed_ne_subtotals h _ Function.name_ne_cube _)
  · exact absurd ht (listed_ne_subtotals h _ Function.name_ne_rollup _)
  · exact absurd ht.symm (listed_ne_subtotals h' _ Function.name_ne_cube _)
  · exact ⟨hg (List.cons.inj ht).2, rfl⟩
  · exact absurd (Tree.word.inj (List.cons.inj ht).1) (by decide)
  · exact absurd ht.symm (listed_ne_subtotals h' _ Function.name_ne_rollup _)
  · exact absurd (Tree.word.inj (List.cons.inj ht).1) (by decide)
  · exact ⟨hg (List.cons.inj ht).2, rfl⟩

theorem wordTrees_inj (h : wordTrees ws = wordTrees ws') : ws = ws' := by
  induction ws generalizing ws' with
  | nil =>
    cases ws' with
    | nil => rfl
    | cons w' ws' => cases h
  | cons w ws ih =>
    cases ws' with
    | nil => cases h
    | cons w' ws' =>
      obtain ⟨hw, ht⟩ := List.cons.inj (List.cons.inj h).2
      rw [String.toList_inj.mp (Tree.word.inj hw), ih ht]

theorem FieldRef.Over.unspaced (h : FieldRef.Over FreeName f) :
    ∀ t ∈ f.trees, ¬t = .blank ' ' := by
  cases h with
  | plain h =>
    intro t ht
    rw [List.mem_singleton.mp ht]
    exact Tree.noConfusion
  | related hp h =>
    intro t ht
    rw [List.mem_singleton.mp ht]
    exact Tree.noConfusion
  | call ha hl =>
    intro t ht
    rcases List.mem_cons.mp ht with rfl | ht
    · exact Tree.noConfusion
    · rw [List.mem_singleton.mp ht]
      exact Tree.noConfusion
  | subquery hq h =>
    rw [trees_subquery hq h]
    intro t ht
    rw [List.mem_singleton.mp ht]
    exact Tree.noConfusion

theorem wordTrees_head (ws : List String) : ∀ t ∈ (wordTrees ws).head?, t = .blank ' ' := by
  intro t ht
  cases ws with
  | nil => cases ht
  | cons w ws =>
    cases ht
    rfl

theorem sortWords_inj
    (h : directionWords d ++ nullsWords n = directionWords d' ++ nullsWords n') :
    d = d' ∧ n = n' := by
  revert h
  rcases d with _ | _ | _ <;> rcases d' with _ | _ | _ <;> rcases n with _ | _ | _ <;>
    rcases n' with _ | _ | _ <;> decide

theorem Ordering.parts_eq {o o' : Ordering} (h : FieldRef.Over FreeName o.field)
    (h' : FieldRef.Over FreeName o'.field) (ht : o.trees = o'.trees) : o.parts = o'.parts := by
  obtain ⟨hf, hw⟩ := append_inj_of_head ht h.unspaced h'.unspaced (wordTrees_head _)
    (wordTrees_head _)
  obtain ⟨hd, hn⟩ := sortWords_inj (wordTrees_inj hw)
  have hs := h.spells
  rw [hf] at hs
  rw [parts, parts, hs.text_eq h'.spells, hd, hn]

theorem Clauses.columns_eq {c c' : Clauses} (h : ∀ f ∈ c.select, FieldRef.Over FreeName f)
    (h' : ∀ f ∈ c'.select, FieldRef.Over FreeName f) (hn : c.select ≠ []) (hn' : c'.select ≠ [])
    (ht : c.columnTrees = c'.columnTrees) : c.columns = c'.columns := by
  have hs {c : Clauses} (h : ∀ f ∈ c.select, FieldRef.Over FreeName f) :
      List.Forall₂ Spells c.columns (c.columns.map fun s => (read s).getD []) :=
    List.forall₂_map_right_iff.mpr (List.forall₂_same.mpr fun s hm => (mem_columns h hm).1)
  have hq {c : Clauses} (h : ∀ f ∈ c.select, FieldRef.Over FreeName f) :
      ∀ ts ∈ c.columns.map fun s => (read s).getD [], ∀ t ∈ ts, ¬t = .comma := by
    intro ts hts
    obtain ⟨s, hm, rfl⟩ := List.mem_map.mp hts
    exact (mem_columns h hm).2.ne_comma
  have hne {c : Clauses} (hn : c.select ≠ []) :
      (c.columns.map fun s => (read s).getD []) ≠ [] := by
    intro hc
    have hm : c.select.map FieldRef.renderSelect ≠ [] := fun hm => hn (List.map_eq_nil_iff.mp hm)
    exact firstOccurrences_ne_nil hm (List.map_eq_nil_iff.mp hc)
  have hf := hs h
  rw [listed_inj ht (hq h) (hq h') (hne hn) (hne hn')] at hf
  exact eq_of_forall₂_spells hf (hs h')

theorem map_eq_of_map_eq {xs ys : List α} {f : α → β} {g : α → γ} (h : xs.map f = ys.map f)
    (hg : ∀ x ∈ xs, ∀ y ∈ ys, f x = f y → g x = g y) : xs.map g = ys.map g := by
  induction xs generalizing ys with
  | nil =>
    cases ys with
    | nil => rfl
    | cons y ys => cases h
  | cons x xs ih =>
    cases ys with
    | nil => cases h
    | cons y ys =>
      obtain ⟨hf, h⟩ := List.cons.inj h
      rw [List.map_cons, List.map_cons, hg x List.mem_cons_self y List.mem_cons_self hf,
        ih h fun x hx y hy => hg x (List.mem_cons_of_mem _ hx) y (List.mem_cons_of_mem _ hy)]

theorem Clauses.order_eq {c c' : Clauses} (h : ∀ o ∈ c.order, FieldRef.Over FreeName o.field)
    (h' : ∀ o ∈ c'.order, FieldRef.Over FreeName o.field) (ht : c.orderTrees = c'.orderTrees) :
    c.order.map Ordering.parts = c'.order.map Ordering.parts := by
  have hq {os : List Ordering} (h : ∀ o ∈ os, FieldRef.Over FreeName o.field) :
      ∀ ts ∈ os.map Ordering.trees, ∀ t ∈ ts, ¬t = .comma := by
    intro ts hts
    obtain ⟨o, hm, rfl⟩ := List.mem_map.mp hts
    exact (Quiet.ordering (h o hm)).ne_comma
  rw [orderTrees, orderTrees] at ht
  split at ht
  · rename_i he
    split at ht
    · rename_i he'
      rw [List.isEmpty_iff.mp he, List.isEmpty_iff.mp he']
    · cases ht
  · rename_i he
    split at ht
    · cases ht
    · rename_i he'
      have hne {os : List Ordering} (h : ¬os.isEmpty = true) : os.map Ordering.trees ≠ [] :=
        fun hm => h (List.isEmpty_iff.mpr (List.map_eq_nil_iff.mp hm))
      obtain ⟨-, hl⟩ := List.cons.inj (List.cons.inj (Option.some.inj ht)).2
      exact map_eq_of_map_eq (listed_inj hl (hq h) (hq h') (hne he) (hne he'))
        fun o ho o' ho' => Ordering.parts_eq (h o ho) (h' o' ho')

theorem Clauses.purposeTexts_eq_tail (c : Clauses) : c.purposeTexts = c.purposeWords.tail := by
  rw [purposeWords]
  split
  · rename_i h
    rw [purposeTexts, List.isEmpty_iff.mp h]
    rfl
  · rfl

theorem Clauses.text_not_mem_purposeWords (c : Clauses) (s : Statistics) :
    s.text ∉ c.purposeWords := by
  have hp (p : Purpose) : s.text ≠ p.text := by
    cases s <;> cases p <;> decide
  have hf : s.text ≠ "FOR" := by
    cases s <;> decide
  rw [purposeWords]
  split
  · exact List.not_mem_nil
  · intro hm
    rcases List.mem_cons.mp hm with hm | hm
    · exact hf hm
    · obtain ⟨p, _, he⟩ := List.mem_map.mp (mem_firstOccurrences hm)
      exact hp p he.symm

theorem Purpose.text_inj {p p' : Purpose} (h : p.text = p'.text) : p = p' := by
  revert h
  cases p <;> cases p' <;> decide

theorem Statistics.text_inj {s t : Statistics} (h : s.text = t.text) : s = t := by
  revert h
  cases s <;> cases t <;> decide

/-- The words from `FOR` to the end say what rows are read for and what is updated. -/
theorem Clauses.lastWords_inj {c c' : Clauses} (h : c.lastWords = c'.lastWords) :
    c.purposeTexts = c'.purposeTexts ∧ c.statistics = c'.statistics := by
  have hm {s : Statistics} {ps : List String} : s.text ∈ ps ++ ["UPDATE", s.text] :=
    List.mem_append_right _ (List.mem_cons_of_mem _ List.mem_cons_self)
  rw [lastWords, lastWords, statisticsWords, statisticsWords] at h
  rw [purposeTexts_eq_tail, purposeTexts_eq_tail]
  cases hs : c.statistics with
  | none =>
    cases hs' : c'.statistics with
    | none =>
      rw [hs, hs', List.append_nil, List.append_nil] at h
      exact ⟨congrArg List.tail h, rfl⟩
    | some s' =>
      rw [hs, hs', List.append_nil] at h
      exact absurd (h ▸ hm) (c.text_not_mem_purposeWords s')
  | some s =>
    cases hs' : c'.statistics with
    | none =>
      rw [hs, hs', List.append_nil] at h
      exact absurd (h ▸ hm) (c'.text_not_mem_purposeWords s)
    | some s' =>
      rw [hs, hs'] at h
      obtain ⟨hp, hw⟩ := List.append_inj' h rfl
      have ht := (List.cons.inj (List.cons.inj hw).2).1
      exact ⟨congrArg List.tail hp, congrArg some (Statistics.text_inj ht)⟩

theorem Clauses.filter_sound {c : Clauses} (h : ∀ f ∈ c.filter, Condition.Over FreeName f)
    (ht : c.filterText = .ok text) : ∀ f ∈ c.filter, f.Sound := by
  intro f hf
  rw [filterText, hf] at ht
  obtain ⟨s, hs, -⟩ := bind_eq_ok_iff.mp ht
  exact ⟨h f hf, s, hs⟩

theorem Grouping.sound {g : Grouping} (h : ∀ c ∈ g.having, Condition.Over FreeName c)
    (ht : g.render = .ok text) : g.fields ≠ [] ∧ ∀ c ∈ g.having, c.Sound := by
  rw [render_eq] at ht
  split at ht
  · cases ht
  · rename_i hn
    refine ⟨fun he => hn (List.isEmpty_iff.mpr he), ?_⟩
    intro c hc
    rw [hc] at ht
    obtain ⟨s, hs, -⟩ := bind_eq_ok_iff.mp ht
    exact ⟨h c hc, s, hs⟩

theorem Clauses.grouping_ok {c : Clauses} (ht : c.groupingText = .ok text) :
    ∀ g ∈ c.grouping, ∃ s, g.render = .ok s := by
  intro g hg
  rw [groupingText, hg] at ht
  obtain ⟨s, hs, -⟩ := bind_eq_ok_iff.mp ht
  exact ⟨s, hs⟩

theorem Clauses.grouping_eq {c c' : Clauses}
    (h : ∀ g ∈ c.grouping, ∀ f ∈ g.fields, FieldRef.Over FreeName f)
    (h' : ∀ g ∈ c'.grouping, ∀ f ∈ g.fields, FieldRef.Over FreeName f)
    (hs : ∀ g ∈ c.grouping, g.fields ≠ [] ∧ ∀ c ∈ g.having, c.Sound)
    (hs' : ∀ g ∈ c'.grouping, g.fields ≠ [] ∧ ∀ c ∈ g.having, c.Sound)
    (hg : c.grouping.map (fun g => groupedTrees g.fields g.subtotals) =
      c'.grouping.map fun g => groupedTrees g.fields g.subtotals)
    (hh : (c.grouping.bind fun g => g.having.map Condition.trees) =
      c'.grouping.bind fun g => g.having.map Condition.trees) :
    c.grouping.map Grouping.parts = c'.grouping.map Grouping.parts := by
  cases hc : c.grouping with
  | none =>
    cases hc' : c'.grouping with
    | none => rfl
    | some g' =>
      rw [hc, hc'] at hg
      cases hg
  | some g =>
    cases hc' : c'.grouping with
    | none =>
      rw [hc, hc'] at hg
      cases hg
    | some g' =>
      rw [hc, hc'] at hg hh
      obtain ⟨hn, hsg⟩ := hs g hc
      obtain ⟨hn', hsg'⟩ := hs' g' hc'
      obtain ⟨hf, ht⟩ := groupedTrees_inj (h g hc) (h' g' hc') hn hn' (Option.some.inj hg)
      rw [Option.map_some, Option.map_some, Grouping.parts, Grouping.parts, hf, ht,
        map_render_eq hsg hsg' hh]

/-- Queries over free names that have the same text have the same parts: columns, table, conditions,
groups, order, limit, offset, purposes and statistics. -/
theorem Query.parts_eq_of_compose_eq (h : Query.Over FreeName q) (h' : Query.Over FreeName q')
    (hc : q.compose = .ok text) (hc' : q'.compose = .ok text) : q.parts = q'.parts := by
  obtain ⟨hcol, hcl, hw⟩ := h.trees_inj h' ((h.spells hc).trees_eq (h'.spells hc'))
  obtain ⟨ht, hf, hg, hh, ho, hl, hof⟩ := clauseTrees_inj hcl
  obtain ⟨hp, hst⟩ := Clauses.lastWords_inj (wordTrees_inj hw)
  obtain ⟨hn, filter, grouping, hft, hgt, -⟩ := compose_ok hc
  obtain ⟨hn', filter', grouping', hft', hgt', -⟩ := compose_ok hc'
  cases h with
  | mk _ hs hfi hgr hha hor =>
    cases h' with
    | mk _ hs' hfi' hgr' hha' hor' =>
      have hgs := Clauses.grouping_eq hgr hgr'
        (fun g hm => (Clauses.grouping_ok hgt g hm).elim fun _ => Grouping.sound (hha g hm))
        (fun g hm => (Clauses.grouping_ok hgt' g hm).elim fun _ => Grouping.sound (hha' g hm))
        hg hh
      rw [parts, parts, Clauses.columns_eq hs hs' hn hn' hcol, ht,
        map_render_eq (Clauses.filter_sound hfi hft) (Clauses.filter_sound hfi' hft') hf, hgs,
        Clauses.order_eq hor hor' ho, hl, hof, hp, hst]

/-- Accounts read for an update, with a value that looks like a clause. -/
def lockedAccounts (columns : List FieldRef) (target : String) (purposes : List Purpose) : Query :=
  ⟨target, columns, some (.compare (.plain "Name") .eq (.string " FOR VIEW")), none, [], some 1,
    none, purposes, some .tracking⟩

theorem lockedAccounts_over (hf : ∀ f ∈ columns, FieldRef.Over FreeName f)
    (ht : FreeName (trimBlank target)) (purposes : List Purpose) :
    Query.Over FreeName (lockedAccounts columns target purposes) := by
  refine .mk ht hf ?_ ?_ ?_ ?_
  · intro c hc
    cases hc
    exact .compare (.plain ⟨by decide, by decide⟩) trivial
  · exact fun g hg => nomatch hg
  · exact fun g hg => nomatch hg
  · exact fun o ho => nomatch ho

/-- Repeated columns and purposes, and blanks around the table, are not seen in a text. -/
theorem parts_eq_of_repetition :
    (lockedAccounts [.plain "Id", .plain "Id"] " Account" [.update, .update]).compose =
        (lockedAccounts [.plain "Id"] "Account" [.update]).compose ∧
      (lockedAccounts [.plain "Id", .plain "Id"] " Account" [.update, .update]).parts =
        (lockedAccounts [.plain "Id"] "Account" [.update]).parts := by
  have hid : FieldRef.Over FreeName (.plain "Id") := .plain ⟨by decide, by decide⟩
  have hs : ∀ f ∈ [FieldRef.plain "Id"], FieldRef.Over FreeName f :=
    List.forall_mem_singleton.mpr hid
  have ht : FreeName (trimBlank " Account") := ⟨by decide, by decide⟩
  have ht' : FreeName (trimBlank "Account") := ⟨by decide, by decide⟩
  have h := lockedAccounts_over (List.forall_mem_cons.mpr ⟨hid, hs⟩) ht [.update, .update]
  have h' := lockedAccounts_over hs ht' [.update]
  have hc : (lockedAccounts [.plain "Id"] "Account" [.update]).compose =
      .ok ("SELECT Id FROM Account WHERE Name = ' FOR VIEW' LIMIT 1"
        ++ " FOR UPDATE UPDATE TRACKING") := rfl
  exact ⟨rfl, Query.parts_eq_of_compose_eq h h' hc hc⟩

end OrgClient.Soql
