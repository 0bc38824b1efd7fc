import OrgClient.Proofs.Schema.Descent
import OrgClient.Proofs.Soql.Closed
import OrgClient.Proofs.Soql.Reading

namespace OrgClient.Soql

open Text
set_option autoImplicit true

/-- What an entry of a select list stands for, whatever its label: a field at the end of a path, a
function of columns, or the text of a query. -/
inductive Column where
  | field (path : List String)
  | call (function : Function) (arguments : List Column)
  | subquery (text : String)

/-- The names in a dotted one. -/
def segments (name : String) : List String :=
  (name.toList.splitOn '.').map String.ofList

namespace FieldRef

mutual

/-- The column of a reference. How a path is split and what labels there are makes no difference. -/
def column : FieldRef → Column
  | .plain name => .field (segments name)
  | .related path field => .field (path ++ segments field)
  | .call function arguments _ => .call function (columnAll arguments)
  | .subquery text => .subquery text

def columnAll : List FieldRef → List Column
  | [] => []
  | f :: fs => f.column :: columnAll fs

end

/-- The outermost label of a reference. -/
def label : FieldRef → Option String
  | .call _ _ label => label
  | _ => none

/-- Two entries of a select list are one column with one label. -/
def SameColumn (f g : FieldRef) : Prop :=
  f.column = g.column ∧ f.label = g.label

/-- References over dotted paths; the text of a query among them is closed. -/
inductive Dotted : FieldRef → Prop
  | plain (h : isPath name) : Dotted (.plain name)
  | related (hne : path ≠ []) (hp : ∀ s ∈ path, isName s) (h : isPath field) :
    Dotted (.related path field)
  | call {label : Option String} (ha : ∀ f ∈ fs, Dotted f) (hl : ∀ s ∈ label, isName s) :
    Dotted (.call function fs label)
  | subquery (hc : Closed text) (h : Query.compose q = .ok text) :
    Dotted (.subquery ("(" ++ text ++ ")"))

/-- The entries of select lists; a query that is an entry itself may be any. -/
inductive Selectable : FieldRef → Prop
  | reference (h : Dotted f) : Selectable f
  | subquery (h : Query.compose q = .ok text) : Selectable (.subquery ("(" ++ text ++ ")"))

theorem columnAll_eq_map (fs : List FieldRef) : columnAll fs = fs.map column := by
  induction fs with
  | nil => rfl
  | cons f fs ih => rw [columnAll, ih, List.map_cons]

/-- A query on child records can be selected, with whatever clauses it was made. -/
theorem Selectable.of_subquery {r : Schema.Resolver κ}
    {build : Schema.Resolver κ → ExceptT Error Id Clauses}
    (h : Id.run (r.subquery property build).run = .ok f) : f.Selectable := by
  obtain ⟨name, place, clauses, text, -, -, ht, rfl⟩ := eq_of_subquery h
  exact .subquery ht

/-- A query over closed names that is made of child records can be an argument. -/
theorem Dotted.of_subquery {r : Schema.Resolver κ}
    {build : Schema.Resolver κ → ExceptT Error Id Clauses}
    (hb : ∀ name place clauses, r.child property = .ok (name, place) →
      Id.run (build place).run = .ok clauses → Query.Over Closed ⟨name, clauses⟩)
    (h : Id.run (r.subquery property build).run = .ok f) : f.Dotted := by
  obtain ⟨name, place, clauses, text, hc, hcl, ht, rfl⟩ := eq_of_subquery h
  exact .subquery ((hb name place clauses hc hcl).closed ht) ht

end FieldRef

theorem segments_ne_nil (name : String) : segments name ≠ [] :=
  mt List.map_eq_nil_iff.mp (List.splitOn_ne_nil _ _)

theorem intercalate_segments (name : String) : ".".intercalate (segments name) = name := by
  rw [← String.toList_inj, String.toList_intercalate, segments, List.map_map]
  have hs : (String.toList ∘ String.ofList) = id := funext fun _ => String.toList_ofList
  rw [hs, List.map_id]
  exact List.intercalate_splitOn '.'

theorem segments_intercalate (hne : path ≠ []) (h : ∀ s ∈ path, isName s) :
    segments (".".intercalate path) = path := by
  have hs : (String.ofList ∘ String.toList) = id := funext fun _ => String.ofList_toList
  rw [segments, splitOn_dots hne h, List.map_map, hs, List.map_id]

theorem isName_segments (h : isPath name) : ∀ s ∈ segments name, isName s := by
  intro s hs
  obtain ⟨cs, hcs, rfl⟩ := List.mem_map.mp hs
  rw [isName, String.toList_ofList]
  exact List.all_eq_true.mp h cs hcs

theorem IsWord.dotted (hne : path ≠ []) (h : ∀ s ∈ path, isName s) :
    IsWord (".".intercalate path) := by
  constructor
  · intro he
    have hp := Schema.isPath_intercalate hne h
    rw [isPath, he] at hp
    exact absurd hp (by decide)
  · intro c hc
    rw [String.toList_intercalate] at hc
    rcases mem_intercalate hc with hc | ⟨l, hl, hc⟩
    · rw [List.mem_singleton.mp hc]
      decide
    · obtain ⟨s, hs, rfl⟩ := List.mem_map.mp hl
      exact isWordChar_of_isNameChar (isNameChar_of_isName (h s hs) c hc)

theorem Function.name_inj {f g : Function} (h : f.name = g.name) : f = g := by
  have hf (f : Function) : Function.all.find? (·.name == f.name) = some f := by
    cases f <;> decide
  have hg := hf g
  rw [← h, hf f] at hg
  exact Option.some.inj hg

namespace Column

mutual

/-- The text of a reference to a column, without its label. -/
def text : Column → String
  | .field path => ".".intercalate path
  | .call function arguments => function.name ++ "(" ++ ", ".intercalate (textAll arguments) ++ ")"
  | .subquery s => s

def textAll : List Column → List String
  | [] => []
  | c :: cs => c.text :: textAll cs

end

/-- The trees of the text of a column. -/
def trees (c : Column) : List Tree :=
  (read c.text).getD []

theorem trees_eq_of_text_eq {c d : Column} (h : c.text = d.text) : c.trees = d.trees := by
  rw [trees, trees, h]

/-- Columns with names in their paths; the texts of the queries in them are closed. -/
inductive Sound : Column → Prop
  | field (hne : path ≠ []) (h : ∀ s ∈ path, isName s) : Sound (.field path)
  | call (h : ∀ c ∈ cs, Sound c) : Sound (.call function cs)
  | subquery (h : Closed s) : Sound (.subquery ("(" ++ s ++ ")"))

theorem textAll_eq_map (cs : List Column) : textAll cs = cs.map text := by
  induction cs with
  | nil => rfl
  | cons c cs ih => rw [textAll, ih, List.map_cons]

theorem spells_field (hne : path ≠ []) (h : ∀ s ∈ path, isName s) :
    Spells (text (.field path)) [.word (".".intercalate path).toList] :=
  .of_isWord (.dotted hne h)

theorem spells_call (h : ∀ c ∈ cs, Spells (text c) c.trees) :
    Spells (text (.call function cs))
      [.word function.name.toList, .group (listed (cs.map trees))] := by
  rw [text, textAll_eq_map]
  refine function.spells.grouped (.listed ?_)
  exact List.forall₂_map_left_iff.mpr (List.forall₂_map_right_iff.mpr (List.forall₂_same.mpr h))

theorem spells_subquery (h : Spells s ts) :
    Spells (text (.subquery ("(" ++ s ++ ")"))) [.group ts] :=
  Spells.empty.grouped h

namespace Sound

theorem spells (h : Sound c) : Spells c.text c.trees := by
  induction h with
  | field hne h => exact (spells_field hne h).getD_read
  | call h ih => exact (spells_call ih).getD_read
  | subquery h =>
    obtain ⟨ts, h⟩ := h
    exact (spells_subquery h).getD_read

theorem trees_field (hne : path ≠ []) (h : ∀ s ∈ path, isName s) :
    trees (.field path) = [.word (".".intercalate path).toList] :=
  (spells_field hne h).getD_read.trees_eq (spells_field hne h)

theorem trees_call (h : ∀ c ∈ cs, Sound c) :
    trees (.call function cs) = [.word function.name.toList, .group (listed (cs.map trees))] :=
  (spells_call fun c hc => (h c hc).spells).getD_read.trees_eq
    (spells_call fun c hc => (h c hc).spells)

theorem trees_subquery (h : Closed s) :
    ∃ ts, trees (.subquery ("(" ++ s ++ ")")) = [.group ts] := by
  obtain ⟨ts, h⟩ := h
  exact ⟨ts, (spells_subquery h).getD_read.trees_eq (spells_subquery h)⟩

/-- The trees of a column are words and groups. -/
theorem mem_trees (h : Sound c) (ht : t ∈ c.trees) : (∃ w, t = .word w) ∨ ∃ ts, t = .group ts := by
  cases h with
  | field hne h =>
    rw [trees_field hne h] at ht
    exact .inl ⟨_, List.mem_singleton.mp ht⟩
  | call h =>
    rw [trees_call h] at ht
    rcases List.mem_cons.mp ht with rfl | ht
    · exact .inl ⟨_, rfl⟩
    · exact .inr ⟨_, List.mem_singleton.mp ht⟩
  | subquery h =>
    obtain ⟨ts, hts⟩ := trees_subquery h
    rw [hts] at ht
    exact .inr ⟨_, List.mem_singleton.mp ht⟩

theorem trees_ne_nil (h : Sound c) : c.trees ≠ [] := by
  cases h with
  | field hne h =>
    rw [trees_field hne h]
    exact List.cons_ne_nil _ _
  | call h =>
    rw [trees_call h]
    exact List.cons_ne_nil _ _
  | subquery h =>
    obtain ⟨ts, hts⟩ := trees_subquery h
    rw [hts]
    exact List.cons_ne_nil _ _

theorem head (h : Sound c) : (∃ w ts, c.trees = .word w :: ts) ∨ ∃ s, c = .subquery s := by
  cases h with
  | field hne h => exact .inl ⟨_, _, trees_field hne h⟩
  | call h => exact .inl ⟨_, _, trees_call h⟩
  | subquery h => exact .inr ⟨_, rfl⟩

theorem ne_comma (h : Sound c) : ∀ t ∈ c.trees, ¬t = .comma := by
  rintro t ht rfl
  rcases h.mem_trees ht with ⟨w, hw⟩ | ⟨ts, hts⟩
  · cases hw
  · cases hts

theorem ne_blank (h : Sound c) : ∀ t ∈ c.trees, ¬t = .blank ' ' := by
  rintro t ht rfl
  rcases h.mem_trees ht with ⟨w, hw⟩ | ⟨ts, hts⟩
  · cases hw
  · cases hts

theorem arguments_eq {cs ds : List Column} (h : ∀ c ∈ cs, Sound c) (h' : ∀ d ∈ ds, Sound d)
    (ht : listed (cs.map trees) = listed (ds.map trees))
    (hi : ∀ c ∈ cs, ∀ d ∈ ds, text c = text d → c = d) : cs = ds := by
  have hm {cs : List Column} (h : ∀ c ∈ cs, Sound c) :
      ∀ ts ∈ cs.map trees, ts ≠ [] ∧ ∀ t ∈ ts, ¬t = .comma := by
    intro ts hts
    obtain ⟨c, hc, rfl⟩ := List.mem_map.mp hts
    exact ⟨(h c hc).trees_ne_nil, (h c hc).ne_comma⟩
  have hl := map_eq_of_map_eq (g := id) (listed_inj_of_ne_nil ht (hm h) (hm h')) fun c hc d hd he =>
    hi c hc d hd ((h c hc).spells.text_eq (he ▸ (h' d hd).spells))
  rwa [List.map_id, List.map_id] at hl

/-- A column is known from its text. -/
theorem eq_of_text_eq (h : Sound c) (h' : Sound d) (ht : c.text = d.text) : c = d := by
  -- The kinds of columns differ in their trees: a word, a word and a group, or a group.
  induction h generalizing d with
  | field hne h =>
    have hr := trees_eq_of_text_eq ht
    rw [trees_field hne h] at hr
    cases h' with
    | field hne' h' =>
      rw [← segments_intercalate hne h, ← segments_intercalate hne' h']
      exact congrArg (fun s => Column.field (segments s)) ht
    | call h' =>
      rw [trees_call h'] at hr
      cases (List.cons.inj hr).2
    | subquery hc =>
      obtain ⟨ts, hts⟩ := trees_subquery hc
      rw [hts] at hr
      cases hr
  | call h ih =>
    have hr := trees_eq_of_text_eq ht
    rw [trees_call h] at hr
    cases h' with
    | field hne' h' =>
      rw [trees_field hne' h'] at hr
      cases (List.cons.inj hr).2
    | call h' =>
      rw [trees_call h'] at hr
      obtain ⟨hf, ha⟩ := List.cons.inj hr
      have hn := Function.name_inj (String.toList_inj.mp (Tree.word.inj hf))
      have hl := Tree.group.inj (List.cons.inj ha).1
      rw [hn, arguments_eq h h' hl fun c hc d hd he => ih c hc (h' d hd) he]
    | subquery hc =>
      obtain ⟨ts, hts⟩ := trees_subquery hc
      rw [hts] at hr
      cases hr
  | subquery hc =>
    have hr := trees_eq_of_text_eq ht
    obtain ⟨ts, hts⟩ := trees_subquery hc
    rw [hts] at hr
    cases h' with
    | field hne' h' =>
      rw [trees_field hne' h'] at hr
      cases hr
    | call h' =>
      rw [trees_call h'] at hr
      cases hr
    | subquery hc' => exact congrArg Column.subquery ht

end Sound

end Column

theorem Spells.head_word (h : Spells s (.word w :: ts)) :
    ∃ c ∈ s.toList.head?, isWordChar c := by
  rw [h.text, flatten_cons, Tree.tokens, List.singleton_append, spell, List.flatMap_cons]
  obtain ⟨hne, hw⟩ := h.separated.sound (.word w) List.mem_cons_self
  obtain ⟨c, cs, rfl⟩ := List.exists_cons_of_ne_nil hne
  exact ⟨c, rfl, hw c List.mem_cons_self⟩

namespace FieldRef

theorem Dotted.sound_column (h : Dotted f) : f.column.Sound := by
  induction h with
  | plain h =>
    rw [column]
    exact .field (segments_ne_nil _) (isName_segments h)
  | related hne hp h =>
    rw [column]
    exact .field (List.append_ne_nil_of_left_ne_nil hne _)
      (List.forall_mem_append.mpr ⟨hp, isName_segments h⟩)
  | call ha hl ih =>
    rw [column, columnAll_eq_map]
    exact .call (List.forall_mem_map.mpr ih)
  | subquery hc h =>
    rw [column]
    exact .subquery hc

theorem Dotted.render_eq (h : Dotted f) : f.render = f.column.text := by
  induction h with
  | plain h => rw [render, column, Column.text, intercalate_segments]
  | @related path field hne hp h =>
    rw [render, column, Column.text,
      String.intercalate_append_of_ne_nil hne (segments_ne_nil field), intercalate_segments]
  | call ha hl ih =>
    rw [render, column, Column.text, columnAll_eq_map, renderAll_eq_map,
      Column.textAll_eq_map, List.map_map]
    rw [List.map_congr_left ih]
    rfl
  | subquery hc h => rw [render, column, Column.text]

theorem Selectable.render_eq (h : Selectable f) : f.render = f.column.text := by
  cases h with
  | reference h => exact h.render_eq
  | subquery h => rw [render, column, Column.text]

def labelText : Option String → String
  | none => ""
  | some s => " " ++ s

theorem renderSelect_eq (f : FieldRef) : f.renderSelect = f.render ++ labelText f.label := by
  cases f with
  | call function arguments label =>
    cases label with
    | none => exact String.append_empty.symm
    | some s => exact String.append_assoc
  | plain name => exact String.append_empty.symm
  | related path field => exact String.append_empty.symm
  | subquery text => exact String.append_empty.symm

theorem Dotted.isName_label (h : Dotted f) : ∀ s ∈ f.label, isName s := by
  cases h with
  | call ha hl => exact hl
  | plain h => exact fun s hs => nomatch hs
  | related hne hp h => exact fun s hs => nomatch hs
  | subquery hc h => exact fun s hs => nomatch hs

theorem Dotted.spells_select (h : Dotted f) :
    Spells f.renderSelect (f.column.trees ++ wordTrees f.label.toList) := by
  have hs := h.sound_column.spells
  rw [renderSelect_eq, h.render_eq]
  cases hl : f.label with
  | none => exact hs.append .empty .nil
  | some s =>
    rw [labelText, ← String.append_assoc]
    exact hs.spaced (.name (h.isName_label s hl))

theorem Dotted.sameColumn (h : Dotted f) (h' : Dotted g) (ht : f.renderSelect = g.renderSelect) :
    f.SameColumn g := by
  have hr := (ht ▸ h.spells_select).trees_eq h'.spells_select
  obtain ⟨hc, hl⟩ := append_inj_of_head hr h.sound_column.ne_blank h'.sound_column.ne_blank
    (wordTrees_head _) (wordTrees_head _)
  constructor
  · have hs := h.sound_column.spells
    rw [hc] at hs
    exact h.sound_column.eq_of_text_eq h'.sound_column (hs.text_eq h'.sound_column.spells)
  · have hh := congrArg List.head? (wordTrees_inj hl)
    rwa [Option.head?_toList, Option.head?_toList] at hh

theorem eq_subquery_of_column (h : column f = .subquery s) : f = .subquery s := by
  cases f with
  | subquery text => exact congrArg FieldRef.subquery (Column.subquery.inj h)
  | plain name => cases h
  | related path field => cases h
  | call function arguments label => cases h

/-- The text of a reference other than a query does not begin with a parenthesis. -/
theorem Dotted.eq_subquery (h : Dotted f) (ht : f.renderSelect = "(" ++ text ++ ")") :
    f = .subquery ("(" ++ text ++ ")") := by
  rcases h.sound_column.head with ⟨w, ts, hc⟩ | ⟨s, hc⟩
  · have hs := h.spells_select
    rw [hc, ht] at hs
    obtain ⟨c, hc, hw⟩ := hs.head_word
    rw [String.toList_append, String.toList_append] at hc
    cases hc
    exact absurd hw (by decide)
  · obtain rfl := eq_subquery_of_column hc
    exact congrArg FieldRef.subquery ht

/-- Entries have equal texts if and only if they are one column with one label. -/
theorem Selectable.renderSelect_eq_iff (h : Selectable f) (h' : Selectable g) :
    f.renderSelect = g.renderSelect ↔ f.SameColumn g := by
  constructor
  · intro ht
    cases h with
    | reference hf =>
      cases h' with
      | reference hg => exact hf.sameColumn hg ht
      | subquery hg =>
        rw [hf.eq_subquery ht]
        exact ⟨rfl, rfl⟩
    | subquery hf =>
      cases h' with
      | reference hg =>
        rw [hg.eq_subquery ht.symm]
        exact ⟨rfl, rfl⟩
      | subquery hg => exact ⟨congrArg Column.subquery ht, rfl⟩
  · rintro ⟨hc, hl⟩
    rw [renderSelect_eq, renderSelect_eq, h.render_eq, h'.render_eq, hc, hl]

end FieldRef

end OrgClient.Soql
