import OrgClient.Proofs.Soql.Spelling

namespace OrgClient.Soql

open Text
set_option autoImplicit true

/-- A text in which strings and parentheses are closed. -/
def Closed (s : String) : Prop :=
  ∃ ts, Spells s ts

/-- A text without strings and parentheses. -/
def Unmarked (s : String) : Prop :=
  ∀ c ∈ s.toList, c ∉ ['\'', '(', ')']

instance : DecidablePred Unmarked :=
  fun s => List.decidableBAll (· ∉ ['\'', '(', ')']) s.toList

theorem Spells.closed (h : Spells s ts) : Closed s :=
  ⟨ts, h⟩

theorem Detached.of_head {ts : List Tree} (h : ∀ w, ts.head? ≠ some (.word w)) : Detached ts := by
  intro t ht
  cases ts with
  | nil => cases ht
  | cons u ts =>
    cases u with
    | word w => exact absurd rfl (h w)
    | quoted body => cases ht; rfl
    | blank c => cases ht; rfl
    | comma => cases ht; rfl
    | group us => cases ht; rfl

theorem isWord_of_getLast? {u : Tree} (h : ∀ w, u ≠ .word w)
    (ht : t ∈ (flatten (ts ++ [u])).getLast?) : t.isWord = false := by
  rw [flatten_append, flatten_cons, flatten_nil, List.append_nil] at ht
  cases u with
  | word w => exact absurd rfl (h w)
  | group us =>
    rw [Tree.tokens, ← List.append_assoc, List.getLast?_concat] at ht
    cases ht
    rfl
  | quoted | blank | comma =>
    rw [Tree.tokens, List.getLast?_concat] at ht
    cases ht
    rfl

/-- Two words in a row are one. -/
theorem Separated.merge (h : Separated (ts ++ [.word v])) (h' : Separated (.word w :: us)) :
    Separated (ts ++ .word (v ++ w) :: us) := by
  have hv := h.sound (.word v) (List.mem_append_right _ List.mem_cons_self)
  have hw := h'.sound (.word w) List.mem_cons_self
  constructor
  · intro t ht
    rcases List.mem_append.mp ht with ht | ht
    · exact h.sound t (List.mem_append_left _ ht)
    · rcases List.mem_cons.mp ht with rfl | ht
      · exact ⟨List.append_ne_nil_of_left_ne_nil hv.1 w, List.forall_mem_append.mpr ⟨hv.2, hw.2⟩⟩
      · exact h'.sound t (List.mem_cons_of_mem _ ht)
  · obtain ⟨hts, -, hlast⟩ := List.isChain_append.mp h.apart
    obtain ⟨hhead, hus⟩ := List.isChain_cons.mp h'.apart
    refine List.isChain_append.mpr ⟨hts, List.isChain_cons.mpr ⟨hhead, hus⟩, fun t ht u hu => ?_⟩
    cases hu
    exact hlast t ht (.word v) rfl

/-- What is put behind a closed text may go on with its last word. -/
theorem Spells.closed_append (hs : Spells s ts) (ht : Spells t us) : Closed (s ++ t) := by
  by_cases hd : ∃ w, us.head? = some (.word w)
  · obtain ⟨w, hw⟩ := hd
    obtain ⟨us, rfl⟩ := List.head?_eq_some_iff.mp hw
    rcases List.eq_nil_or_concat' ts with rfl | ⟨ts, u, rfl⟩
    · exact ⟨_, hs.append_of_apart ht fun t ht => nomatch ht⟩
    · by_cases hu : ∃ v, u = .word v
      · obtain ⟨v, rfl⟩ := hu
        refine ⟨ts ++ .word (v ++ w) :: us, ?_, ?_⟩
        · simp [hs.text, ht.text, spell, Tree.tokens, Token.text]
        · have hv := hs.separated
          have hw := ht.separated
          simp only [flatten_append, flatten_cons, flatten_nil, Tree.tokens, List.append_nil]
            at hv hw ⊢
          exact hv.merge hw
      · refine ⟨_, hs.append_of_apart ht fun t hl v _ hw => ?_⟩
        rw [isWord_of_getLast? (fun w he => hu ⟨w, he⟩) hl] at hw
        exact absurd hw.1 Bool.false_ne_true
  · exact ⟨_, hs.append ht (.of_head fun w hw => hd ⟨w, hw⟩)⟩

namespace Closed

theorem append (hs : Closed s) (ht : Closed t) : Closed (s ++ t) := by
  obtain ⟨ts, hs⟩ := hs
  obtain ⟨us, ht⟩ := ht
  exact hs.closed_append ht

theorem grouped (hs : Closed s) (ht : Closed t) : Closed (s ++ "(" ++ t ++ ")") := by
  obtain ⟨ts, hs⟩ := hs
  obtain ⟨us, ht⟩ := ht
  exact (hs.grouped ht).closed

theorem intercalate (hm : Closed m) (h : ∀ s ∈ ss, Closed s) : Closed (m.intercalate ss) := by
  induction ss with
  | nil => exact Spells.empty.closed
  | cons s ss ih =>
    have hs := h s List.mem_cons_self
    cases ss with
    | nil =>
      rw [String.intercalate_singleton]
      exact hs
    | cons t ss =>
      rw [String.intercalate_cons_cons]
      exact (hs.append hm).append (ih fun u hu => h u (List.mem_cons_of_mem s hu))

theorem single (h : c ∉ ['\'', '(', ')']) : Closed (String.ofList [c]) := by
  by_cases hb : isAsciiBlank c
  · have hs : Spells (String.ofList [c]) [.blank c] :=
      .single (t := .blank c) String.toList_ofList hb rfl
    exact hs.closed
  · by_cases hc : c = ','
    · subst hc
      exact Spells.comma.closed
    · refine ⟨_, Spells.word ?_ ?_⟩
      · rw [String.toList_ofList]
        exact List.cons_ne_nil c []
      · rw [String.toList_ofList]
        refine List.forall_mem_singleton.mpr ?_
        simp only [List.mem_cons, List.not_mem_nil, or_false, not_or] at h
        simp [isAsciiBlank] at hb
        simp [isWordChar, delimiters, h, hb, hc]

theorem of_unmarked (h : Unmarked s) : Closed s := by
  have hcs : ∀ cs : List Char, (∀ c ∈ cs, c ∉ ['\'', '(', ')']) → Closed (String.ofList cs) := by
    intro cs
    induction cs with
    | nil => exact fun _ => Spells.empty.closed
    | cons c cs ih =>
      intro h
      rw [← List.singleton_append, String.ofList_append]
      obtain ⟨hc, hcs⟩ := List.forall_mem_cons.mp h
      exact (single hc).append (ih hcs)
  rw [← String.ofList_toList (s := s)]
  exact hcs s.toList h

theorem of_forall₂ (h : List.Forall₂ Spells ss tss) : ∀ s ∈ ss, Closed s := by
  induction h with
  | nil => exact List.forall_mem_nil _
  | cons hs _ ih => exact List.forall_mem_cons.mpr ⟨hs.closed, ih⟩

theorem space : Closed " " :=
  Spells.space.closed

theorem spaced (hs : Closed s) (ht : Closed t) : Closed (s ++ " " ++ t) :=
  (hs.append space).append ht

theorem listed (h : ∀ s ∈ ss, Closed s) : Closed (", ".intercalate ss) :=
  .intercalate (.of_unmarked (by decide)) h

theorem references (h : ∀ f ∈ fs, Closed (FieldRef.render f)) :
    Closed (", ".intercalate (FieldRef.renderAll fs)) := by
  rw [FieldRef.renderAll_eq_map]
  exact .listed (List.forall_mem_map.mpr h)

theorem membership {f : FieldRef} (hf : Closed f.render) (hl : Closed list) :
    Closed (renderMembership f op list) := by
  have hp : " (" = " " ++ "(" := rfl
  rw [renderMembership, hp, ← String.append_assoc]
  exact ((hf.spaced op.spells.closed).append space).grouped hl

theorem joined (op : Connective) (negated : Bool) (h : ∀ s ∈ texts, Closed s) :
    Closed (renderGroup op negated texts) := by
  have hs := intercalate op.spells.closed h
  cases negated with
  | false => exact hs
  | true => exact (of_unmarked (s := "NOT ") (by decide)).grouped hs

theorem groupedFields (h : ∀ f ∈ fs, Closed (FieldRef.render f)) :
    Closed (groupedFields fs subtotals) := by
  have hl := references h
  rcases subtotals with _ | _ | _
  · exact hl
  · exact (of_unmarked (s := "CUBE") (by decide)).grouped hl
  · exact (of_unmarked (s := "ROLLUP") (by decide)).grouped hl

theorem bound (hw : Unmarked word) (n : Option Nat) : Closed (boundText word n) := by
  cases n with
  | none => exact Spells.empty.closed
  | some n => exact (of_unmarked hw).append (Spells.figures (.natText n)).closed

theorem ordering {o : Ordering} (h : Closed o.field.render) : Closed o.render :=
  (h.append (spells_direction o.direction).closed).append (spells_nulls o.nulls).closed

theorem order {c : Clauses} (h : ∀ o ∈ c.order, Closed o.field.render) : Closed c.orderText := by
  rw [Clauses.orderText]
  split
  · exact Spells.empty.closed
  · exact (of_unmarked (by decide)).append
      (.listed (List.forall_mem_map.mpr fun o ho => .ordering (h o ho)))

theorem tail {c : Clauses} (h : ∀ o ∈ c.order, Closed o.field.render) : Closed c.tail := by
  rw [Clauses.tail_eq]
  exact ((((order h).append (bound (by decide) c.limit)).append (bound (by decide) c.offset)).append
    c.spells_purposes.closed).append c.spells_statistics.closed

theorem filter {c : Clauses}
    (h : ∀ f ∈ c.filter, ∀ s, Condition.render f = .ok s → Closed s)
    (ht : c.filterText = .ok text) : Closed text := by
  rw [Clauses.filterText] at ht
  cases hf : c.filter with
  | none =>
    rw [hf] at ht
    cases ht
    exact Spells.empty.closed
  | some f =>
    rw [hf] at ht
    obtain ⟨s, hs, ht⟩ := bind_eq_ok_iff.mp ht
    cases ht
    exact (of_unmarked (by decide)).append (h f hf s hs)

theorem grouping {g : Grouping} (hf : ∀ f ∈ g.fields, Closed f.render)
    (h : ∀ c ∈ g.having, ∀ s, Condition.render c = .ok s → Closed s)
    (ht : g.render = .ok text) : Closed text := by
  rw [Grouping.render_eq] at ht
  split at ht
  · cases ht
  · cases hh : g.having with
    | none =>
      rw [hh] at ht
      cases ht
      exact .groupedFields hf
    | some c =>
      rw [hh] at ht
      obtain ⟨s, hs, ht⟩ := bind_eq_ok_iff.mp ht
      cases ht
      exact ((groupedFields hf).append (of_unmarked (by decide))).append (h c hh s hs)

theorem query {q : Query} (ht : Closed (trimBlank q.target))
    (hs : ∀ f ∈ q.clauses.select, Closed f.renderSelect)
    (hf : ∀ c ∈ q.clauses.filter, ∀ s, Condition.render c = .ok s → Closed s)
    (hg : ∀ g ∈ q.clauses.grouping, ∀ s, Grouping.render g = .ok s → Closed s)
    (ho : ∀ o ∈ q.clauses.order, Closed o.field.render) (h : q.compose = .ok text) :
    Closed text := by
  obtain ⟨-, filter, grouping, hft, hgt, rfl⟩ := Query.compose_ok h
  have hc : ∀ s ∈ q.clauses.columns, Closed s := by
    intro s hm
    obtain ⟨f, hf, rfl⟩ := List.mem_map.mp (mem_firstOccurrences hm)
    exact hs f hf
  have hgr : Closed grouping := by
    rw [Clauses.groupingText] at hgt
    cases hq : q.clauses.grouping with
    | none =>
      rw [hq] at hgt
      cases hgt
      exact Spells.empty.closed
    | some g =>
      rw [hq] at hgt
      obtain ⟨s, hs, hgt⟩ := bind_eq_ok_iff.mp hgt
      cases hgt
      exact (of_unmarked (by decide)).append (hg g hq s hs)
  have hl := (of_unmarked (s := "SELECT ") (by decide)).append (.listed hc)
  have hfrom := (hl.append (of_unmarked (s := " FROM ") (by decide))).append ht
  exact ((hfrom.append (.filter hf hft)).append hgr).append (.tail ho)

end Closed

theorem FieldRef.Over.closed_select (h : FieldRef.Over Closed f) (hs : Closed f.render) :
    Closed f.renderSelect := by
  cases h with
  | @call fs label function ha hl =>
    cases label with
    | none => exact hs
    | some s => exact hs.spaced (hl s rfl)
  | plain h => exact hs
  | related hp h => exact hs
  | subquery hq h => exact hs

namespace Condition

theorem closed_compare (hf : Closed f.render) (hv : value.Known)
    (h : render (.compare f op value) = .ok text) : Closed text := by
  rw [render, renderComparison] at h
  split at h
  · cases h
  · obtain ⟨s, hs, h⟩ := bind_eq_ok_iff.mp h
    cases h
    exact (hf.spaced op.spells.closed).spaced (hv.spells hs).closed

theorem closed_oneOf (hf : Closed f.render) (hv : ∀ v ∈ values, Literal.Known v)
    (h : render (.oneOf f op values) = .ok text) : Closed text := by
  rw [render] at h
  split at h
  · cases h
  · obtain ⟨texts, hs, h⟩ := bind_eq_ok_iff.mp h
    cases h
    exact .membership hf (.listed (.of_forall₂ (spells_literals hv hs)))

theorem closed_within (hf : Closed f.render) (hq : ∀ s, Query.compose q = .ok s → Closed s)
    (h : render (.within f op q) = .ok text) : Closed text := by
  rw [render] at h
  obtain ⟨s, hs, h⟩ := bind_eq_ok_iff.mp h
  cases h
  exact .membership hf (hq s hs)

theorem closed_parts (hc : ∀ c ∈ cs, ∀ s, render c = .ok s → Closed s)
    (h : renderParts cs = .ok texts) : ∀ s ∈ texts, Closed s := by
  induction cs generalizing texts with
  | nil =>
    rw [renderParts] at h
    cases h
    exact List.forall_mem_nil _
  | cons c cs ih =>
    rw [renderParts] at h
    obtain ⟨text, ht, h⟩ := bind_eq_ok_iff.mp h
    obtain ⟨texts', hts, h⟩ := bind_eq_ok_iff.mp h
    cases h
    have hs := hc c List.mem_cons_self text ht
    refine List.forall_mem_cons.mpr ⟨?_, ih (fun d hd => hc d (List.mem_cons_of_mem c hd)) hts⟩
    split
    · exact Spells.empty.closed.grouped hs
    · exact hs

theorem closed_group (hc : ∀ c ∈ children, ∀ s, render c = .ok s → Closed s)
    (h : render (.group op children negated) = .ok text) : Closed text := by
  rw [render] at h
  split at h
  · cases h
  · obtain ⟨texts, hs, h⟩ := bind_eq_ok_iff.mp h
    cases h
    exact .joined op negated (closed_parts hc hs)

end Condition

mutual

/-- The text of a reference over closed names is closed. -/
theorem FieldRef.Over.closed : ∀ {f}, FieldRef.Over Closed f → Closed f.render
  | _, .plain h => h
  | _, .related hp h =>
    ((Closed.intercalate (.of_unmarked (by decide)) hp).append (.of_unmarked (by decide))).append h
  | _, @FieldRef.Over.call _ _ _ function ha _ =>
    function.spells.closed.grouped (.references fun g hg => (ha g hg).closed)
  | _, .subquery hq h => Spells.empty.closed.grouped (hq.closed h)

/-- The text of a condition over closed names is closed. -/
theorem Condition.Over.closed : ∀ {c text}, Condition.Over Closed c → c.render = .ok text →
    Closed text
  | _, _, .compare hf hv, h => Condition.closed_compare hf.closed hv h
  | _, _, .oneOf hf hv, h => Condition.closed_oneOf hf.closed hv h
  | _, _, .within hf hq, h => Condition.closed_within hf.closed (fun _ hs => hq.closed hs) h
  | _, _, .group hc, h => Condition.closed_group (fun c hm _ hs => (hc c hm).closed hs) h

/-- The text of a query over closed names is closed. -/
theorem Query.Over.closed : ∀ {q text}, Query.Over Closed q → q.compose = .ok text → Closed text
  | _, _, .mk ht hs hf hg hh ho, h =>
    .query ht (fun f hm => (hs f hm).closed_select (hs f hm).closed)
      (fun c hc _ hs => (hf c hc).closed hs)
      (fun g hm _ hs => .grouping (fun f hi => (hg g hm f hi).closed)
        (fun c hc _ hs => (hh g hm c hc).closed hs) hs)
      (fun o hm => (ho o hm).closed) h

end

end OrgClient.Soql
