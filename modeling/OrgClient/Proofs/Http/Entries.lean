import Mathlib.Algebra.Group.Nat.Defs
import Mathlib.Data.Bool.AllAny
import OrgClient.Http.Usage
import OrgClient.Proofs.Number.Digits

namespace OrgClient.Http.Usage

open Number
set_option autoImplicit true

def entryName : List Char :=
  "api-usage".toList

/-- An entry of a header. Its value may have equals signs, its name has none. -/
structure Entry where
  name : List Char
  value : List Char
  name_plain : ∀ c ∈ name, isSeparator c = false ∧ c ≠ '='
  value_plain : ∀ c ∈ value, isSeparator c = false

def Entry.text (e : Entry) : List Char :=
  e.name ++ '=' :: e.value

/-- A text that lists entries, with one separator or more between two of them. -/
inductive Lists : List Entry → List Char → Prop
  | nil : Lists [] []
  | skip (hc : isSeparator c) (h : Lists es cs) : Lists es (c :: cs)
  | last (e : Entry) : Lists [e] e.text
  | cons (e : Entry) (hc : isSeparator c) (h : Lists es cs) : Lists (e :: es) (e.text ++ c :: cs)

/-- A number in digits. -/
structure Digits (ds : List Char) : Prop where
  ne_nil : ds ≠ []
  digits : ∀ c ∈ ds, c.isDigit

/-- A value that starts with two numbers. The second one ends where its digits do. -/
structure Counts (value ms ns : List Char) : Prop where
  first : Digits ms
  second : Digits ns
  eq : ∃ rest, Ends rest ∧ value = ms ++ '/' :: (ns ++ rest)

theorem digits?_append (hd : Digits ds) (hr : Ends rest) :
    digits? (ds ++ rest) = some (ds, rest) := by
  have hs := span_digits hd.digits hr
  rw [List.span_eq_takeWhile_dropWhile] at hs
  obtain ⟨ht, hdrop⟩ := Prod.mk.inj hs
  rw [digits?, ht, hdrop]
  cases ds with
  | nil => exact absurd rfl hd.ne_nil
  | cons d ds => rfl

theorem isDigit_of_isSeparator (h : isSeparator c) : c.isDigit = false := by
  simp only [isSeparator, Bool.or_eq_true, Bool.and_eq_true, beq_iff_eq, decide_eq_true_eq] at h
  rcases h with ((rfl | ⟨-, h⟩) | rfl) | rfl
  · decide
  · have hlt : c.val < '0'.val := UInt32.lt_of_le_of_lt h (by decide)
    rw [Char.isDigit, decide_eq_false (UInt32.not_le.mpr hlt), Bool.false_and]
  · decide
  · decide

theorem ends_append (hr : Ends rest) (hs : Ends cs) : Ends (rest ++ cs) := by
  cases rest with
  | nil => exact hs
  | cons c rest => exact Ends.cons (hr c rfl) _

theorem entry?_of_not_prefix (h : ¬ entryName ++ ['='] <+: cs) : entry? cs = none := by
  have h' : "api-usage=".toList.isPrefixOf cs = false :=
    Bool.eq_false_iff.mpr (mt List.isPrefixOf_iff_prefix.mp h)
  simp only [h', entry?, Bool.false_eq_true, if_false]

theorem entry?_separator (hc : isSeparator c) (cs : List Char) : entry? (c :: cs) = none := by
  apply entry?_of_not_prefix
  intro h
  have ha : 'a' = c := (List.cons_prefix_cons.mp h).1
  subst ha
  exact absurd hc (by decide)

theorem eq_of_isPrefix_concat (ha : x ∉ as) (hb : x ∉ bs) (h : as ++ [x] <+: bs ++ x :: cs) :
    as = bs := by
  induction as generalizing bs with
  | nil =>
    cases bs with
    | nil => rfl
    | cons b bs =>
      have he : x = b := (List.cons_prefix_cons.mp h).1
      exact absurd (he ▸ List.mem_cons_self) hb
  | cons a as ih =>
    rw [List.mem_cons, not_or] at ha
    cases bs with
    | nil => exact absurd (List.cons_prefix_cons.mp h).1.symm ha.1
    | cons b bs =>
      obtain ⟨he, ht⟩ := List.cons_prefix_cons.mp h
      rw [he, ih ha.2 (mt (List.mem_cons_of_mem b) hb) ht]

/-- The name of an entry goes up to its first equals sign. -/
theorem entry?_other (hn : e.name ≠ entryName) (cs : List Char) :
    entry? (Entry.text e ++ cs) = none := by
  apply entry?_of_not_prefix
  intro h
  rw [Entry.text, List.append_assoc, List.cons_append] at h
  have he : '=' ∉ e.name := fun hm => (e.name_plain _ hm).2 rfl
  exact hn (eq_of_isPrefix_concat (by decide) he h).symm

theorem entry?_of_prefix (cs : List Char) :
    entry? (entryName ++ '=' :: cs) = (digits? cs).bind fun r =>
      match r.2 with
      | '/' :: rest => (digits? rest).bind fun r' => some (r.1, r'.1)
      | _ => none :=
  rfl

theorem entry?_usage (hn : e.name = entryName) (hv : Counts e.value ms ns) (hr : Ends rest) :
    entry? (Entry.text e ++ rest) = some (ms, ns) := by
  obtain ⟨hm, hn', rest', hr', hvalue⟩ := hv
  have hslash : Ends ('/' :: (ns ++ (rest' ++ rest))) := Ends.cons rfl _
  rw [Entry.text, hn, hvalue, List.append_assoc, List.cons_append, List.append_assoc,
    List.cons_append, List.append_assoc, entry?_of_prefix, digits?_append hm hslash]
  change (digits? (ns ++ (rest' ++ rest))).bind _ = _
  rw [digits?_append hn' (ends_append hr' hr), Option.bind_some]

theorem find?_separator (hc : isSeparator c) (b : Bool) (cs : List Char) :
    find? b (c :: cs) = find? true cs := by
  cases b with
  | false => simp only [find?, hc, Bool.false_eq_true, if_false]
  | true => simp only [find?, hc, entry?_separator hc, if_true]

theorem find?_inside (h : ∀ c ∈ ds, isSeparator c = false) (cs : List Char) :
    find? false (ds ++ cs) = find? false cs := by
  induction ds with
  | nil => rfl
  | cons d ds ih =>
    rw [List.forall_mem_cons] at h
    rw [List.cons_append, find?]
    simp only [h.1, Bool.false_eq_true, if_false]
    exact ih h.2

theorem Entry.text_plain (e : Entry) : ∀ c ∈ e.text, isSeparator c = false := by
  intro c hc
  rcases List.mem_append.mp hc with hc | hc
  · exact (e.name_plain c hc).1
  · rcases List.mem_cons.mp hc with rfl | hc
    · decide
    · exact e.value_plain c hc

theorem Entry.text_ne_nil (e : Entry) : e.text ≠ [] :=
  List.append_ne_nil_of_right_ne_nil _ (List.cons_ne_nil _ _)

theorem find?_other (hn : e.name ≠ entryName) (cs : List Char) :
    find? true (Entry.text e ++ cs) = find? false cs := by
  have he := entry?_other hn cs
  have hp := e.text_plain
  cases ht : e.text with
  | nil => exact absurd ht e.text_ne_nil
  | cons c ds =>
    rw [ht] at he hp
    rw [List.forall_mem_cons] at hp
    rw [List.cons_append] at he ⊢
    rw [find?]
    simp only [he, hp.1, if_true]
    exact find?_inside hp.2 cs

theorem find?_usage (hn : e.name = entryName) (hv : Counts e.value ms ns) (hr : Ends rest) :
    find? true (Entry.text e ++ rest) = some (ms, ns) := by
  have he := entry?_usage hn hv hr
  cases ht : e.text with
  | nil => exact absurd ht e.text_ne_nil
  | cons c ds =>
    rw [ht, List.cons_append] at he
    rw [List.cons_append, find?]
    simp only [he, if_true]

theorem find?_of_lists_none (h : Lists es cs) (hn : ∀ e ∈ es, e.name ≠ entryName) :
    find? true cs = none := by
  induction h with
  | nil => rfl
  | skip hc _ ih => rw [find?_separator hc, ih hn]
  | last e =>
    have h := find?_other (hn e List.mem_cons_self) []
    rw [List.append_nil] at h
    exact h
  | cons e hc _ ih =>
    rw [List.forall_mem_cons] at hn
    rw [find?_other hn.1, find?_separator hc, ih hn.2]

/-- The first entry with the name is found, wherever it stands. -/
theorem find?_of_lists (h : Lists (before ++ e :: behind) cs)
    (hb : ∀ d ∈ before, d.name ≠ entryName) (hn : e.name = entryName)
    (hv : Counts e.value ms ns) : find? true cs = some (ms, ns) := by
  generalize hes : before ++ e :: behind = es at h
  induction h generalizing before with
  | nil => cases List.append_ne_nil_of_right_ne_nil before (List.cons_ne_nil e behind) hes
  | skip hc _ ih => rw [find?_separator hc, ih hb hes]
  | last d =>
    cases before with
    | nil =>
      cases hes
      have h := find?_usage hn hv Ends.nil
      rw [List.append_nil] at h
      exact h
    | cons b before => cases before <;> cases hes
  | cons d hc _ ih =>
    cases before with
    | nil =>
      cases hes
      exact find?_usage hn hv (Ends.cons (isDigit_of_isSeparator hc) _)
    | cons b before =>
      rw [List.forall_mem_cons] at hb
      obtain ⟨rfl, ht⟩ := List.cons_eq_cons.mp hes
      rw [find?_other hb.1, find?_separator hc, ih hb.2 ht]

theorem count?_eq (ds : List Char) :
    count? ds =
      if Nat.ofDigitChars 10 ds 0 < 2 ^ 64 then some (Nat.ofDigitChars 10 ds 0) else none :=
  rfl

/-- The usage in a header of entries is that of the first entry with its name, if its numbers fit
64 bits. There is none if no entry has the name. -/
theorem ofHeader?_of_entries (h : Lists es header.toList) :
    ((∀ e ∈ es, e.name ≠ entryName) → ofHeader? header = none) ∧
      ∀ before e behind ms ns, es = before ++ e :: behind →
        (∀ d ∈ before, d.name ≠ entryName) → e.name = entryName → Counts e.value ms ns →
          ofHeader? header =
            if Nat.ofDigitChars 10 ms 0 < 2 ^ 64 ∧ Nat.ofDigitChars 10 ns 0 < 2 ^ 64 then
              some ⟨Nat.ofDigitChars 10 ms 0, Nat.ofDigitChars 10 ns 0⟩
            else none := by
  constructor
  · intro hn
    rw [ofHeader?, find?_of_lists_none h hn]
    rfl
  · rintro before e behind ms ns rfl hb hn hv
    rw [ofHeader?, find?_of_lists h hb hn hv]
    change ((count? ms).bind fun m => (count? ns).bind fun n => some (Usage.mk m n)) = _
    rw [count?_eq, count?_eq]
    by_cases hm : Nat.ofDigitChars 10 ms 0 < 2 ^ 64
    · by_cases hl : Nat.ofDigitChars 10 ns 0 < 2 ^ 64
      · rw [if_pos hm, if_pos hl, if_pos ⟨hm, hl⟩]
        rfl
      · rw [if_pos hm, if_neg hl, if_neg (not_and_of_not_right _ hl)]
        rfl
    · rw [if_neg hm, if_neg (not_and_of_not_left _ hm)]
      rfl

def appEntry : Entry where
  name := "per-app-api-usage".toList
  value := "2/250(appName=sync)".toList
  name_plain := List.all_iff_forall_prop.mp (by decide)
  value_plain := List.all_iff_forall_prop.mp (by decide)

def orgEntry : Entry where
  name := entryName
  value := "40/5000".toList
  name_plain := List.all_iff_forall_prop.mp (by decide)
  value_plain := List.all_iff_forall_prop.mp (by decide)

def twoUsages : String :=
  "per-app-api-usage=2/250(appName=sync); api-usage=40/5000"

theorem orgEntry_read_behind_appEntry :
    Lists [appEntry, orgEntry] twoUsages.toList ∧ appEntry.name ≠ entryName ∧
      Counts orgEntry.value "40".toList "5000".toList ∧
      ofHeader? twoUsages = some ⟨40, 5000⟩ := by
  have ht : twoUsages.toList = appEntry.text ++ ';' :: ' ' :: orgEntry.text := by decide
  have hl : Lists [appEntry, orgEntry] twoUsages.toList := by
    rw [ht]
    apply Lists.cons _ rfl
    apply Lists.skip rfl
    exact .last orgEntry
  have ha : appEntry.name ≠ entryName := by decide
  have hc : Counts orgEntry.value "40".toList "5000".toList :=
    ⟨⟨nofun, List.all_eq_true.mp rfl⟩, ⟨nofun, List.all_eq_true.mp rfl⟩, [], Ends.nil, rfl⟩
  have hb : ∀ d ∈ [appEntry], d.name ≠ entryName := List.forall_mem_singleton.mpr ha
  exact ⟨hl, ha, hc, (ofHeader?_of_entries hl).2 [appEntry] orgEntry [] _ _ rfl hb rfl hc⟩

end OrgClient.Http.Usage
