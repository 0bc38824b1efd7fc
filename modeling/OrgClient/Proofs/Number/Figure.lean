import OrgClient.Calendar.Date
import Mathlib.Data.List.Basic

namespace OrgClient.Number

open Calendar
set_option autoImplicit true

/-- The characters of numbers, dates and times. -/
def isFigure (c : Char) : Bool :=
  c.isDigit || ['+', '-', '.', ':', 'T', 'Z'].contains c

/-- Such characters, and at least one. -/
structure Figures (cs : List Char) : Prop where
  ne_nil : cs ≠ []
  figures : ∀ c ∈ cs, isFigure c

theorem isFigure_of_isDigit (h : c.isDigit) : isFigure c := by
  simp [isFigure, h]

theorem Figures.append (h : Figures cs) (h' : ∀ c ∈ ds, isFigure c) : Figures (cs ++ ds) := by
  refine ⟨List.append_ne_nil_of_left_ne_nil h.ne_nil _, ?_⟩
  intro c hc
  rcases List.mem_append.mp hc with hc | hc
  · exact h.figures c hc
  · exact h' c hc

theorem Figures.cons (hc : isFigure c) (h : ∀ c ∈ cs, isFigure c) : Figures (c :: cs) :=
  ⟨List.cons_ne_nil _ _, List.forall_mem_cons.mpr ⟨hc, h⟩⟩

theorem Figures.toDigits (n : Nat) : Figures (Nat.toDigits 10 n) :=
  ⟨Nat.toDigits_ne_nil, fun _ hc =>
    isFigure_of_isDigit (Nat.isDigit_of_mem_toDigits (by decide) (by decide) hc)⟩

theorem natText_inj (h : natText m = natText n) : m = n := by
  have hd : Nat.toDigits 10 m = Nat.toDigits 10 n := by
    simpa [natText] using congrArg String.toList h
  rw [← Nat.ofDigitChars_ten_toDigits (n := m), hd, Nat.ofDigitChars_ten_toDigits]

theorem Figures.natText (n : Nat) : Figures (natText n).toList := by
  rw [Number.natText, String.toList_ofList]
  exact .toDigits n

theorem Figures.intText (n : Int) : Figures (intText n).toList := by
  cases n with
  | ofNat n => exact .natText n
  | negSucc n =>
    rw [Number.intText, String.toList_append]
    exact .cons (by decide) (Figures.natText _).figures

theorem isFigure_zeros (n : Nat) : ∀ c ∈ List.replicate n '0', isFigure c := by
  intro c hc
  rw [List.eq_of_mem_replicate hc]
  decide

theorem Figures.padded (width n : Nat) : Figures (padded width n).toList := by
  rw [Number.padded, String.toList_ofList]
  refine ⟨List.append_ne_nil_of_right_ne_nil _ (Figures.toDigits n).ne_nil, ?_⟩
  intro c hc
  rcases List.mem_append.mp hc with hc | hc
  · exact isFigure_zeros _ c hc
  · exact (Figures.toDigits n).figures c hc

theorem Figures.yearText (y : Int) : Figures (yearText y).toList := by
  rw [Calendar.yearText]
  split
  · exact .padded _ _
  · rw [String.toList_append]
    split
    · exact .cons (by decide) (Figures.padded _ _).figures
    · exact .cons (by decide) (Figures.padded _ _).figures

theorem Figures.joined {s m t : String} (h : Figures s.toList) (hm : m.toList.all isFigure)
    (h' : Figures t.toList) : Figures (s ++ m ++ t).toList := by
  rw [String.toList_append, String.toList_append]
  exact (h.append (List.all_eq_true.mp hm)).append h'.figures

theorem Figures.date (d : Date) : Figures d.text.toList :=
  .joined (.joined (.yearText _) (by decide) (.padded _ _)) (by decide) (.padded _ _)

theorem Figures.instant (t : Instant) : Figures t.text.toList := by
  rw [Instant.text, String.toList_append]
  refine Figures.append ?_ (List.all_eq_true.mp (by decide))
  apply Figures.joined _ (by decide) (.padded _ _)
  apply Figures.joined _ (by decide) (.padded _ _)
  exact .joined (.date _) (by decide) (.padded _ _)

theorem Figures.write (h : Figures ds) (point : Int) :
    Figures (Layout.plain.write ds point) := by
  simp only [Layout.write, Layout.plain, Option.bind_eq_bind, Option.bind_none, Option.all_none,
    Bool.false_eq_true, ↓reduceIte,
    List.append_nil]
  split
  · split
    · exact h.append (isFigure_zeros _)
    · refine ⟨List.append_ne_nil_of_right_ne_nil _ (List.cons_ne_nil _ _), ?_⟩
      intro c hc
      rcases List.mem_append.mp hc with hc | hc
      · exact h.figures c (List.mem_of_mem_take hc)
      · rcases List.mem_cons.mp hc with rfl | hc
        · decide
        · exact h.figures c (List.mem_of_mem_drop hc)
  · refine .cons (by decide) (List.forall_mem_cons.mpr ⟨by decide, ?_⟩)
    intro c hc
    rcases List.mem_append.mp hc with hc | hc
    · exact isFigure_zeros _ c hc
    · exact h.figures c hc

theorem isFigure_sign (b : Bool) : (if b then "-" else "").toList.all isFigure := by
  cases b <;> rfl

theorem Figures.double (hx : x.isFinite) : Figures (Layout.plain.text x).toList := by
  have hn : x.isNaN = false := by
    simp only [Double.isFinite, Double.isNaN, decide_eq_true_eq, decide_eq_false_iff_not] at *
    omega
  have hs {s : String} (h : Figures s.toList) :
      Figures ((if x.isNegative then "-" else "") ++ s).toList := by
    rw [String.toList_append]
    refine ⟨List.append_ne_nil_of_right_ne_nil _ h.ne_nil, ?_⟩
    intro c hc
    rcases List.mem_append.mp hc with hc | hc
    · exact List.all_eq_true.mp (isFigure_sign _) c hc
    · exact h.figures c hc
  simp only [Layout.text, hn, hx, Bool.false_eq_true, ↓reduceIte, Bool.not_true]
  split
  · exact hs (s := "0") (.cons (by decide) (List.forall_mem_nil _))
  · apply hs
    rw [String.toList_ofList]
    exact .write (.toDigits _) _

end OrgClient.Number
