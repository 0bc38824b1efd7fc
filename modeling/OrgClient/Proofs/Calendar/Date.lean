import OrgClient.Proofs.Number.Digits

namespace OrgClient.Calendar

open Number
set_option autoImplicit true

/-- The days of an era of 400 years before its year `y`, where years begin in March. -/
def daysBefore (y : Nat) : Nat :=
  365 * y + y / 4 - y / 100

/-- The year of an era in which its day `n` lies. -/
def yearOfEra (n : Nat) : Nat :=
  (n - n / 1460 + n / 36524 - n / 146096) / 365

theorem yearOfEra_lt (h : n < 146097) : yearOfEra n < 400 := by
  unfold yearOfEra
  omega

/-- A day lies behind the first of its year, and no more than a leap year behind it. -/
theorem daysBefore_yearOfEra (h : n < 146097) :
    daysBefore (yearOfEra n) ≤ n ∧ n ≤ daysBefore (yearOfEra n) + 365 := by
  have hy := yearOfEra_lt h
  generalize he : yearOfEra n = y at hy ⊢
  unfold yearOfEra at he
  unfold daysBefore
  -- Within one century of the era every fourth year has a leap day.
  have hc : y / 100 = 0 ∨ y / 100 = 1 ∨ y / 100 = 2 ∨ y / 100 = 3 := by omega
  rcases hc with hc | hc | hc | hc <;> omega

/-- The date of a day of an era. -/
def Date.ofEra (era : Int) (n : Nat) : Date :=
  let day := n - daysBefore (yearOfEra n)
  let month := if (5 * day + 2) / 153 < 10 then (5 * day + 2) / 153 + 3 else (5 * day + 2) / 153 - 9
  let year : Int := yearOfEra n + era * 400
  ⟨if month ≤ 2 then year + 1 else year, month, day - (153 * ((5 * day + 2) / 153) + 2) / 5 + 1⟩

/-- The days from 1 January 1970 to a date. -/
def Date.toDays (d : Date) : Int :=
  let year := if d.month ≤ 2 then d.year - 1 else d.year
  let month := if d.month ≤ 2 then d.month + 9 else d.month - 3
  let day := (153 * month + 2) / 5 + (d.day - 1)
  year / 400 * 146097 + daysBefore (year % 400).toNat + day - 719468

theorem Date.ofDays_eq (days : Int) :
    ofDays days = ofEra ((days + 719468).fdiv 146097)
      (days + 719468 - (days + 719468).fdiv 146097 * 146097).toNat :=
  rfl

theorem Date.toDays_ofEra (era : Int) (h : n < 146097) :
    (ofEra era n).toDays = era * 146097 + n - 719468 := by
  have hy := yearOfEra_lt h
  obtain ⟨hl, hu⟩ := daysBefore_yearOfEra h
  rw [ofEra]
  generalize yearOfEra n = y at hy hl hu ⊢
  have hera : (y + era * 400 : Int) / 400 = era := by omega
  have hyear : (y + era * 400 : Int) % 400 = y := by omega
  generalize hday : n - daysBefore y = day
  generalize hm : (5 * day + 2) / 153 = m
  -- The months before the one with the day are behind the first of its year.
  have hlast : (153 * m + 2) / 5 ≤ day := by omega
  rw [toDays]
  by_cases hs : m < 10
  · have hmonth : ¬m + 3 ≤ 2 := by omega
    simp only [if_pos hs, if_neg hmonth, hera, hyear, Int.toNat_natCast, Nat.add_sub_cancel]
    omega
  · have hmonth : m - 9 ≤ 2 := by omega
    have hback : m - 9 + 9 = m := by omega
    simp only [if_neg hs, if_pos hmonth, hback, Int.add_sub_cancel, hera, hyear,
      Int.toNat_natCast]
    omega

theorem Date.toDays_ofDays (days : Int) : (ofDays days).toDays = days := by
  rw [ofDays_eq, Int.fdiv_eq_ediv_of_nonneg _ (by decide), toDays_ofEra _ (by omega)]
  omega

def readDay (year : Int) (cs : List Char) : Option (Date × List Char) := do
  let (month, cs) ← readField '-' cs
  let (day, cs) ← readField '-' cs
  return (⟨year, month, day⟩, cs)

/-- The instant of a date and a time; the second 60 of a minute is a leap second. -/
def Instant.ofClock (d : Date) (hour minute second : Nat) : Instant :=
  let start := d.toDays * 86400 + (hour * 3600 + minute * 60 : Nat)
  if second = 60 then ⟨start + 59, 1000000000⟩ else ⟨start + second, 0⟩

/-- The time behind a date, at the end of a text. -/
def readClock (d : Date) (cs : List Char) : Option Instant := do
  let (hour, cs) ← readField 'T' cs
  let (minute, cs) ← readField ':' cs
  let (second, cs) ← readField ':' cs
  if cs = ['Z'] then return .ofClock d hour minute second else none

/-- The instant at the start of the same second. A leap second, which ends its minute, is a second
of its own; elsewhere a second or more of nanoseconds is carried into the next second. -/
def Instant.wholeSecond (t : Instant) : Instant :=
  if t.nanoseconds < 1000000000 then ⟨t.seconds, 0⟩
  else if t.seconds % 60 = 59 then ⟨t.seconds, 1000000000⟩
  else ⟨t.seconds + 1, 0⟩

theorem ofClock_secondOfDay (t : Instant) :
    Instant.ofClock t.date (t.secondOfDay / 3600) (t.secondOfDay / 60 % 60) t.second =
      t.wholeSecond := by
  have hd : t.date.toDays = t.seconds / 86400 := by
    rw [Instant.date, Date.toDays_ofDays, Int.fdiv_eq_ediv_of_nonneg _ (by decide)]
  have hs : (t.secondOfDay : Int) = t.seconds % 86400 := by
    rw [Instant.secondOfDay, Int.fmod_eq_emod_of_nonneg _ (by decide)]
    omega
  rw [Instant.ofClock, hd, Instant.wholeSecond, Instant.second]
  by_cases hn : t.nanoseconds < 1000000000
  · rw [if_pos hn, if_neg (Nat.not_le.mpr hn), if_neg (by omega), Instant.mk.injEq]
    exact ⟨by omega, rfl⟩
  · rw [if_neg hn, if_pos (Nat.not_lt.mp hn)]
    by_cases hl : t.seconds % 60 = 59
    · rw [if_pos hl, if_pos (by omega), Instant.mk.injEq]
      exact ⟨by omega, rfl⟩
    · rw [if_neg hl, if_neg (by omega), Instant.mk.injEq]
      exact ⟨by omega, rfl⟩

theorem Date.toList_text_append (d : Date) (rest : List Char) :
    d.text.toList ++ rest =
      (yearText d.year).toList ++ '-' :: ((padded 2 d.month).toList ++
        '-' :: ((padded 2 d.day).toList ++ rest)) := by
  simp [text, String.toList_append]

theorem readDay_text (d : Date) (h : Ends rest) :
    readDay d.year ('-' :: ((padded 2 d.month).toList ++
      '-' :: ((padded 2 d.day).toList ++ rest))) = some (d, rest) := by
  have hm := readField_padded '-' 2 d.month
    (Ends.cons (c := '-') rfl ((padded 2 d.day).toList ++ rest))
  have hd := readField_padded '-' 2 d.day h
  simp only [readDay, hm, hd, Option.bind_eq_bind, Option.bind_some]
  rfl

theorem Instant.toList_text (t : Instant) :
    t.text.toList = t.date.text.toList ++ 'T' :: ((padded 2 (t.secondOfDay / 3600)).toList ++
      ':' :: ((padded 2 (t.secondOfDay / 60 % 60)).toList ++
        ':' :: ((padded 2 t.second).toList ++ ['Z']))) := by
  simp [text, String.toList_append]

theorem readClock_text (t : Instant) :
    readClock t.date ('T' :: ((padded 2 (t.secondOfDay / 3600)).toList ++
      ':' :: ((padded 2 (t.secondOfDay / 60 % 60)).toList ++
        ':' :: ((padded 2 t.second).toList ++ ['Z'])))) = some t.wholeSecond := by
  have hs := readField_padded ':' 2 t.second (Ends.cons (c := 'Z') rfl [])
  have hm := readField_padded ':' 2 (t.secondOfDay / 60 % 60)
    (Ends.cons (c := ':') rfl ((padded 2 t.second).toList ++ ['Z']))
  have hh := readField_padded 'T' 2 (t.secondOfDay / 3600)
    (Ends.cons (c := ':') rfl ((padded 2 (t.secondOfDay / 60 % 60)).toList ++
      ':' :: ((padded 2 t.second).toList ++ ['Z'])))
  simp only [readClock, hh, hm, hs, Option.bind_eq_bind, Option.bind_some, ↓reduceIte]
  exact congrArg some (ofClock_secondOfDay t)

end OrgClient.Calendar
