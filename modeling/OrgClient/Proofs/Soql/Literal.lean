import OrgClient.Proofs.Calendar.Date
import OrgClient.Proofs.Soql.Naming
import OrgClient.Proofs.Text.Quoted

namespace OrgClient.Soql

open Calendar Number Text
set_option autoImplicit true

namespace Literal

/-- A literal whose text is not rounded, with a relative date that is known. -/
def Exact : Literal → Prop
  | .number _ => False
  | .relativeDate text => relativeDate? text = .ok (.relativeDate text)
  | _ => True

/-- The literal without the fraction of a second. -/
def wholeSecond : Literal → Literal
  | .instant t => .instant t.wholeSecond
  | v => v

def readString (cs : List Char) : Option Literal :=
  match scanString cs with
  | some (body, []) => (unescape body).map fun s => .string (String.ofList s)
  | _ => none

def readWord (text : String) : Option Literal :=
  if text = "null" then some .null
  else if text = "true" then some (.boolean true)
  else if text = "false" then some (.boolean false)
  else if isRelativeDate text then some (.relativeDate text)
  else none

/-- The literal that a number and the rest of a text stand for. -/
def readFigure (n : Int) : List Char → Option Literal
  | [] => some (.integer n)
  | cs =>
    match readDay n cs with
    | none => none
    | some (d, []) => some (.date d)
    | some (d, rest) => (readClock d rest).map .instant

/-- The literal that a text stands for; there are none that are numbers with a fraction. -/
def read (text : String) : Option Literal :=
  match readInt text.toList with
  | some (n, rest) => readFigure n rest
  | none => (readString text.toList).or (readWord text)

theorem isRelativeDate_of_exact (h : Exact (.relativeDate text)) : isRelativeDate text := by
  rw [Exact, relativeDate?] at h
  split at h
  · assumption
  · cases h

end Literal

theorem isDigit_of_isAlpha {c : Char} (h : c.isAlpha) : c.isDigit = false := by
  have hc : ('A').val ≤ c.val := by
    rcases Bool.or_eq_true_iff.mp h with h | h
    · exact (of_decide_eq_true h).1
    · exact UInt32.le_trans (by decide) (of_decide_eq_true (Bool.and_eq_true_iff.mp h).1)
  rw [Bool.eq_false_iff]
  intro hd
  exact absurd (UInt32.le_trans hc (of_decide_eq_true (Bool.and_eq_true_iff.mp hd).2)) (by decide)

theorem isRelativeDate_head (h : isRelativeDate s) :
    ∃ c cs, s.toList = c :: cs ∧ c.isAlpha := by
  have hn : ∀ name, isName name → ∃ c cs, name.toList = c :: cs ∧ c.isAlpha := by
    intro name hn
    rw [isName, isNameChars.eq_def] at hn
    split at hn
    · cases hn
    · rename_i c cs hc
      rw [Bool.and_eq_true] at hn
      exact ⟨c, cs, hc, hn.1⟩
  rcases isRelativeDate_cases h with hs | ⟨name, hm, n, hs, -⟩
  · exact hn s (isName_relativeDates s (List.mem_append_left _ hs))
  · obtain ⟨c, cs, hc, ha⟩ := hn name (isName_relativeDates name (List.mem_append_right _ hm))
    rw [hc] at hs
    exact ⟨c, _, hs, ha⟩

namespace Literal

theorem read_quote (s : String) : read (quote s) = some (.string s) := by
  have hi : readInt (quote s).toList = none := by
    rw [toList_quote]
    exact readInt_eq_none rfl (by decide) (by decide) _
  have hs := scanString_quote s []
  rw [List.append_nil] at hs
  rw [read, hi]
  simp only [readString, hs, unescape_escape, Option.map_some, String.ofList_toList,
    Option.some_or]

theorem read_relativeDate (h : isRelativeDate s) : read s = some (.relativeDate s) := by
  obtain ⟨c, cs, hc, ha⟩ := isRelativeDate_head h
  have hd := isDigit_of_isAlpha ha
  have hne {d : Char} (hd : d.isAlpha = false) : c ≠ d := by
    rintro rfl
    rw [ha] at hd
    cases hd
  have hi : readInt s.toList = none := by
    rw [hc]
    exact readInt_eq_none hd (hne rfl) (hne rfl) cs
  have hs : readString s.toList = none := by
    have hq : scanString s.toList = none := by
      rw [hc, scanString.eq_2]
      rintro ds ⟨rfl, -⟩
      cases ha
    rw [readString, hq]
  have hw {w : String} (hw : isRelativeDate w = false) : s ≠ w := by
    rintro rfl
    rw [h] at hw
    cases hw
  rw [read, hi, hs, Option.none_or, readWord, if_neg (hw (by decide)), if_neg (hw (by decide)),
    if_neg (hw (by decide)), if_pos h]

theorem read_integer (n : Int) : read (intText n) = some (.integer n) := by
  have hi := readInt_intText n .nil
  rw [List.append_nil] at hi
  rw [read, hi]
  rfl

theorem read_date (d : Date) : read d.text = some (.date d) := by
  have hi := readInt_yearText d.year
    (Ends.cons (c := '-') rfl ((padded 2 d.month).toList ++ '-' :: ((padded 2 d.day).toList ++ [])))
  have hd := readDay_text d .nil
  rw [← Date.toList_text_append, List.append_nil] at hi
  simp only [read, hi, readFigure, hd]

theorem read_instant (t : Instant) : read t.text = some (.instant t.wholeSecond) := by
  have hr := readClock_text t
  have ht := t.toList_text
  generalize (padded 2 (t.secondOfDay / 3600)).toList ++ _ = clock at hr ht
  have hi := readInt_yearText t.date.year (Ends.cons (c := '-') rfl
    ((padded 2 t.date.month).toList ++ '-' :: ((padded 2 t.date.day).toList ++ 'T' :: clock)))
  have hd := readDay_text t.date (Ends.cons (c := 'T') rfl clock)
  rw [← Date.toList_text_append, ← ht] at hi
  simp only [read, hi, readFigure, hd, hr, Option.map_some]

/-- A literal has a text, from which it is read back up to the fraction of a second. -/
theorem Exact.reads_back (hv : Exact v) :
    ∃ text, v.render = .ok text ∧ read text = some v.wholeSecond := by
  cases v with
  | string s => exact ⟨_, rfl, read_quote s⟩
  | integer n => exact ⟨_, rfl, read_integer n⟩
  | number x => exact hv.elim
  | boolean b =>
    cases b with
    | true => exact ⟨_, rfl, rfl⟩
    | false => exact ⟨_, rfl, rfl⟩
  | date d => exact ⟨_, rfl, read_date d⟩
  | instant t => exact ⟨_, rfl, read_instant t⟩
  | relativeDate s => exact ⟨_, rfl, read_relativeDate (isRelativeDate_of_exact hv)⟩
  | null => exact ⟨_, rfl, rfl⟩

/-- A string is one token with an end of its own, whatever stands behind it, and its body stands for
its value. -/
theorem string_delimits_itself (s rest : String) :
    (string s).render = .ok ("'" ++ escape s ++ "'") ∧
      scanString ("'" ++ escape s ++ "'" ++ rest).toList = some ((escape s).toList, rest.toList) ∧
      unescape (escape s).toList = some s.toList ∧ Function.Injective escape := by
  have hs := scanString_quote s rest.toList
  rw [← String.toList_append] at hs
  exact ⟨rfl, hs, unescape_escape s, escape_injective⟩

/-- Literals with one text are of one kind and have one value, up to the fraction of a second. -/
theorem wholeSecond_eq_of_render_eq (hv : Exact v) (hw : Exact w) (h : v.render = .ok text)
    (h' : w.render = .ok text) : v.wholeSecond = w.wholeSecond := by
  obtain ⟨s, hs, hr⟩ := hv.reads_back
  obtain ⟨t, ht, hr'⟩ := hw.reads_back
  rw [h, Except.ok.injEq] at hs
  rw [h', Except.ok.injEq] at ht
  rw [← hs] at hr
  rw [← ht, hr, Option.some.injEq] at hr'
  exact hr'

/-- A leap second has the text of no other second. -/
theorem leapSecond_keeps_value :
    (instant ⟨59, 1999999999⟩).render = .ok "1970-01-01T00:00:60Z" ∧
      (instant ⟨59, 1000000000⟩).render = .ok "1970-01-01T00:00:60Z" ∧
      wholeSecond (instant ⟨59, 1999999999⟩) = wholeSecond (instant ⟨59, 1000000000⟩) := by
  have h : (instant ⟨59, 1999999999⟩).render = .ok "1970-01-01T00:00:60Z" := by decide +kernel
  have h' : (instant ⟨59, 1000000000⟩).render = .ok "1970-01-01T00:00:60Z" := by decide +kernel
  exact ⟨h, h', wholeSecond_eq_of_render_eq trivial trivial h h'⟩

end Literal

end OrgClient.Soql
