import Mathlib.Tactic.IntervalCases
import OrgClient.Text.Utf8

namespace OrgClient.Text

set_option autoImplicit true

theorem toNat_byte (h : n < 256) : (UInt8.ofNat n).toNat = n :=
  UInt8.toNat_ofNat_of_lt' h

theorem utf8Begin_one (h : n < 128) : utf8Begin (UInt8.ofNat n) = some (.inl (Char.ofNat n)) := by
  have hn := toNat_byte (n := n) (by omega)
  have hlt : UInt8.ofNat n < 0x80 := UInt8.lt_iff_toNat_lt.mpr (hn.trans_lt h)
  rw [utf8Begin, if_pos hlt, hn]

theorem utf8Begin_two (h : 2 ≤ n) (hn : n < 32) :
    utf8Begin (UInt8.ofNat (n + 192)) = some (.inr ⟨n, 0x80, 0xBF, 0⟩) := by
  interval_cases n <;> rfl

theorem utf8Begin_three (h : n < 16) :
    utf8Begin (UInt8.ofNat (n + 224)) =
      some (.inr ⟨n, if n = 0 then 0xA0 else 0x80, if n = 13 then 0x9F else 0xBF, 1⟩) := by
  interval_cases n <;> rfl

theorem utf8Begin_four (h : n < 5) :
    utf8Begin (UInt8.ofNat (n + 240)) =
      some (.inr ⟨n, if n = 0 then 0x90 else 0x80, if n = 4 then 0x8F else 0xBF, 2⟩) := by
  interval_cases n <;> rfl

/-- A byte with six bits is taken if it is in the range of the next byte. -/
theorem utf8Read_tail (least greatest : UInt8) (hd : d < 64) (hl : least.toNat ≤ d + 128)
    (hg : d + 128 ≤ greatest.toNat) (bits behind : Nat) (bs : List UInt8) :
    utf8Read (some ⟨bits, least, greatest, behind⟩) (UInt8.ofNat (d + 128) :: bs) =
      match behind with
      | 0 => some (Char.ofNat (bits * 64 + d)) :: utf8Read none bs
      | n + 1 => utf8Read (some ⟨bits * 64 + d, 0x80, 0xBF, n⟩) bs := by
  have hn := toNat_byte (n := d + 128) (by omega)
  have hb : (d + 128) % 64 = d := by omega
  have hin : (least ≤ UInt8.ofNat (d + 128) && UInt8.ofNat (d + 128) ≤ greatest) = true := by
    simp only [UInt8.le_iff_toNat_le, hn, Bool.and_eq_true, decide_eq_true_eq]
    exact ⟨hl, hg⟩
  cases behind with
  | zero => simp only [utf8Read, hin, hn, hb, if_true]
  | succ n => simp only [utf8Read, hin, hn, hb, if_true]

theorem utf8Read_next (least greatest : UInt8) (hd : d < 64) (hl : least.toNat ≤ d + 128)
    (hg : d + 128 ≤ greatest.toNat) (bits n : Nat) (bs : List UInt8) :
    utf8Read (some ⟨bits, least, greatest, n + 1⟩) (UInt8.ofNat (d + 128) :: bs) =
      utf8Read (some ⟨bits * 64 + d, 0x80, 0xBF, n⟩) bs :=
  utf8Read_tail least greatest hd hl hg ..

theorem utf8Read_last (hd : d < 64) (bits : Nat) (bs : List UInt8) :
    utf8Read (some ⟨bits, 0x80, 0xBF, 0⟩) (UInt8.ofNat (d + 128) :: bs) =
      some (Char.ofNat (bits * 64 + d)) :: utf8Read none bs :=
  utf8Read_tail 0x80 0xBF hd (Nat.le_add_left 128 d)
    (Nat.add_le_add_right (Nat.le_pred_of_lt hd) 128) ..

theorem utf8Read_begun (h : utf8Begin b = some (.inr p)) (bs : List UInt8) :
    utf8Read none (b :: bs) = utf8Read (some p) bs := by
  rw [utf8Read, h]

section Character

variable {v : Nat} (bs : List UInt8)

theorem utf8Read_one (h : v < 128) :
    utf8Read none (UInt8.ofNat v :: bs) = some (Char.ofNat v) :: utf8Read none bs := by
  rw [utf8Read, utf8Begin_one h]

theorem utf8Read_two (h : 128 ≤ v) (h' : v < 2048) :
    utf8Read none (UInt8.ofNat (v / 64 % 32 + 192) :: UInt8.ofNat (v % 64 + 128) :: bs) =
      some (Char.ofNat v) :: utf8Read none bs := by
  have hb : v / 64 % 32 * 64 + v % 64 = v := by omega
  rw [utf8Read_begun (utf8Begin_two (by omega) (by omega)), utf8Read_last (by omega), hb]

/-- The second byte of three tells the shortest characters and the surrogates apart. -/
theorem utf8Read_three (h : 2048 ≤ v) (h' : v < 65536) (hv : v < 0xD800 ∨ 0xDFFF < v) :
    utf8Read none (UInt8.ofNat (v / 4096 % 16 + 224) :: UInt8.ofNat (v / 64 % 64 + 128) ::
      UInt8.ofNat (v % 64 + 128) :: bs) = some (Char.ofNat v) :: utf8Read none bs := by
  have hb : (v / 4096 % 16 * 64 + v / 64 % 64) * 64 + v % 64 = v := by omega
  rw [utf8Read_begun (utf8Begin_three (by omega)), utf8Read_next _ _ (by omega) ?_ ?_]
  · rw [utf8Read_last (by omega), hb]
  · split
    · change 0xA0 ≤ _
      omega
    · change 0x80 ≤ _
      omega
  · split
    · change _ ≤ 0x9F
      omega
    · change _ ≤ 0xBF
      omega

theorem utf8Read_four (h : 65536 ≤ v) (h' : v < 0x110000) :
    utf8Read none (UInt8.ofNat (v / 262144 % 8 + 240) :: UInt8.ofNat (v / 4096 % 64 + 128) ::
      UInt8.ofNat (v / 64 % 64 + 128) :: UInt8.ofNat (v % 64 + 128) :: bs) =
        some (Char.ofNat v) :: utf8Read none bs := by
  have hb : ((v / 262144 % 8 * 64 + v / 4096 % 64) * 64 + v / 64 % 64) * 64 + v % 64 = v := by
    omega
  have hd : v / 64 % 64 < 64 := by omega
  rw [utf8Read_begun (utf8Begin_four (by omega)), utf8Read_next _ _ (by omega) ?_ ?_]
  · rw [utf8Read_next 0x80 0xBF hd (Nat.le_add_left 128 _)
      (Nat.add_le_add_right (Nat.le_pred_of_lt hd) 128), utf8Read_last (by omega), hb]
  · split
    · change 0x90 ≤ _
      omega
    · change 0x80 ≤ _
      omega
  · split
    · change _ ≤ 0x8F
      omega
    · change _ ≤ 0xBF
      omega

theorem utf8Read_char (c : Char) :
    utf8Read none (String.utf8EncodeChar c ++ bs) = some c :: utf8Read none bs := by
  have hv : c.val.toNat < 0xD800 ∨ 0xDFFF < c.val.toNat ∧ c.val.toNat < 0x110000 := c.valid
  have hc : some c = some (Char.ofNat c.val.toNat) := congrArg some (Char.ofNat_toNat c).symm
  rw [hc, String.utf8EncodeChar]
  split_ifs with h1 h2 h3
  · exact utf8Read_one bs (by omega)
  · exact utf8Read_two bs (by omega) (by omega)
  · exact utf8Read_three bs (by omega) (by omega) (by omega)
  · exact utf8Read_four bs (by omega) (by omega)

end Character

theorem utf8Read_utf8Bytes (cs : List Char) : utf8Read none (utf8Bytes cs) = cs.map some := by
  induction cs with
  | nil => rfl
  | cons c cs ih =>
    rw [utf8Bytes, List.flatMap_cons, utf8Read_char, ← utf8Bytes, ih, List.map_cons]

theorem ofUtf8?_utf8Bytes (s : String) : ofUtf8? (utf8Bytes s.toList) = some s := by
  rw [ofUtf8?, utf8Read_utf8Bytes, List.mapM_map]
  change Option.map String.ofList (s.toList.mapM pure) = _
  rw [List.mapM_pure]
  simp

theorem ofUtf8Lossy_utf8Bytes (s : String) : ofUtf8Lossy (utf8Bytes s.toList) = s := by
  rw [ofUtf8Lossy, utf8Read_utf8Bytes]
  simp

end OrgClient.Text
