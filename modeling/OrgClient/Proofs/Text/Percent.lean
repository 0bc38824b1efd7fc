import OrgClient.Proofs.Text.Utf8

namespace OrgClient.Text

set_option autoImplicit true

/-- A digit of a number of base sixteen, no small letter. -/
def isUpperHex (c : Char) : Bool :=
  c.isDigit || ('A' ≤ c && c ≤ 'F')

/-- Texts of kept characters and of bytes as `%` and two hexadecimal digits. -/
inductive Coded (keep : Char → Bool) : List Char → Prop
  | nil : Coded keep []
  | kept (hc : keep c) (h : Coded keep cs) : Coded keep (c :: cs)
  | byte (ha : isUpperHex a) (hb : isUpperHex b) (h : Coded keep cs) :
    Coded keep ('%' :: a :: b :: cs)

variable {keep : Char → Bool} {cs ds : List Char}

namespace Coded

theorem append (h : Coded keep cs) (h' : Coded keep ds) : Coded keep (cs ++ ds) := by
  induction h with
  | nil => exact h'
  | kept hc _ ih => exact .kept hc ih
  | byte ha hb _ ih => exact .byte ha hb ih

theorem flatMap {f : α → List Char} {xs : List α} (h : ∀ x ∈ xs, Coded keep (f x)) :
    Coded keep (xs.flatMap f) := by
  induction xs with
  | nil => exact .nil
  | cons x xs ih =>
    rw [List.flatMap_cons]
    exact (h x List.mem_cons_self).append (ih fun y hy => h y (List.mem_cons_of_mem x hy))

theorem mono {keep' : Char → Bool} (h : Coded keep cs) (hk : ∀ c, keep c → keep' c) :
    Coded keep' cs := by
  induction h with
  | nil => exact .nil
  | kept hc _ ih => exact .kept (hk _ hc) ih
  | byte ha hb _ ih => exact .byte ha hb ih

/-- What holds of kept characters, the percent sign and the digits holds of all characters. -/
theorem forall_mem {P : Char → Prop} (h : Coded keep cs) (hk : ∀ c, keep c → P c) (hp : P '%')
    (hx : ∀ c, isUpperHex c → P c) : ∀ c ∈ cs, P c := by
  induction h with
  | nil => exact fun _ hc => nomatch hc
  | kept hc _ ih => exact List.forall_mem_cons.mpr ⟨hk _ hc, ih⟩
  | byte ha hb _ ih =>
    simp only [List.forall_mem_cons]
    exact ⟨hp, hx _ ha, hx _ hb, ih⟩

theorem not_mem (h : Coded keep cs) (hk : keep c = false) (hp : c ≠ '%')
    (hx : isUpperHex c = false) : c ∉ cs := by
  have hne : ∀ p : Char → Bool, p c = false → ∀ d, p d → d ≠ c := by
    intro p hc d hd he
    rw [he, hc] at hd
    cases hd
  intro hc
  exact h.forall_mem (hne keep hk) hp.symm (hne isUpperHex hx) c hc rfl

end Coded

theorem isUpperHex_hexDigit (h : n < 16) : isUpperHex (hexDigit n) := by
  interval_cases n <;> rfl

theorem digitValue?_hexDigit (h : n < 16) : digitValue? 16 (hexDigit n) = some n := by
  interval_cases n <;> rfl

theorem div_sixteen_lt (b : UInt8) : b.toNat / 16 < 16 := by
  have hb := b.toNat_lt
  omega

theorem coded_percentByte (keep : Char → Bool) (b : UInt8) : Coded keep (percentByte b) :=
  .byte (isUpperHex_hexDigit (div_sixteen_lt b)) (isUpperHex_hexDigit (Nat.mod_lt _ (by decide)))
    .nil

theorem percentDecode_percentByte (b : UInt8) (cs : List Char) :
    percentDecode (percentByte b ++ cs) = b :: percentDecode cs := by
  have hn : b.toNat / 16 * 16 + b.toNat % 16 = b.toNat := by omega
  change percentDecode ('%' :: hexDigit _ :: hexDigit _ :: cs) = _
  rw [percentDecode, digitValue?_hexDigit (div_sixteen_lt b),
    digitValue?_hexDigit (Nat.mod_lt _ (by decide))]
  simp only [hn, UInt8.ofNat_toNat]

theorem percentDecode_percentBytes (bs : List UInt8) (cs : List Char) :
    percentDecode (bs.flatMap percentByte ++ cs) = bs ++ percentDecode cs := by
  induction bs with
  | nil => rfl
  | cons b bs ih =>
    rw [List.flatMap_cons, List.append_assoc, percentDecode_percentByte, ih, List.cons_append]

theorem percentDecode_cons (h : c ≠ '%') (cs : List Char) :
    percentDecode (c :: cs) = String.utf8EncodeChar c ++ percentDecode cs := by
  rw [percentDecode]
  intro a b cs' hc
  exact absurd hc h

theorem coded_percentEncode (keep : Char → Bool) (cs : List Char) :
    Coded keep (percentEncode keep cs) := by
  apply Coded.flatMap
  intro c _
  split
  · rename_i hc
    exact .kept hc .nil
  · exact .flatMap fun b _ => coded_percentByte keep b

/-- A text of characters that are kept stays as it is. -/
theorem percentEncode_of_kept (h : ∀ c ∈ cs, keep c) : percentEncode keep cs = cs := by
  rw [percentEncode]
  induction cs with
  | nil => rfl
  | cons c cs ih =>
    rw [List.flatMap_cons, if_pos (h c List.mem_cons_self),
      ih fun d hd => h d (List.mem_cons_of_mem c hd), List.singleton_append]

theorem percentDecode_percentEncode (hk : keep '%' = false) (cs ds : List Char) :
    percentDecode (percentEncode keep cs ++ ds) = utf8Bytes cs ++ percentDecode ds := by
  induction cs with
  | nil => rfl
  | cons c cs ih =>
    rw [percentEncode, List.flatMap_cons, ← percentEncode, List.append_assoc, utf8Bytes,
      List.flatMap_cons, ← utf8Bytes, List.append_assoc]
    split
    · rename_i hc
      have hne : c ≠ '%' := fun he => by simp [he, hk] at hc
      rw [List.singleton_append, percentDecode_cons hne, ih]
    · rw [percentDecode_percentBytes, ih]

theorem coded_encodeComponent (s : String) : Coded isUnreserved (encodeComponent s).toList := by
  rw [encodeComponent, String.toList_ofList]
  exact coded_percentEncode isUnreserved s.toList

theorem percentDecode_encodeComponent (s : String) :
    percentDecode (encodeComponent s).toList = utf8Bytes s.toList := by
  have hk : isUnreserved '%' = false := by decide
  have h := percentDecode_percentEncode hk s.toList []
  rw [List.append_nil, percentDecode, List.append_nil] at h
  rw [encodeComponent, String.toList_ofList, h]

example : encodeComponent "a+é" = "a%2B%C3%A9" := by decide

end OrgClient.Text
