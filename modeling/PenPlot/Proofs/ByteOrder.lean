import Mathlib.Data.List.Basic

/-!
# The order of bytes

Texts are compared character by character, which is the order of their UTF-8 bytes (`bytes_lt_bytes`): the
first byte of a character is greater the more bytes it has, and among characters of as many bytes, these are the
digits of its code, the highest first (`utf8EncodeChar_append_lt`).
-/

namespace PenPlot.Text

/-- The UTF-8 bytes of a text. -/
def bytes (s : String) : List UInt8 :=
  s.toUTF8.data.toList

theorem bytes_eq (s : String) : bytes s = s.toList.flatMap String.utf8EncodeChar := by
  have hbytes : s.toUTF8 = s.toList.utf8Encode := by
    rw [← String.toByteArray_ofList, String.ofList_toList]
    rfl
  rw [bytes, hbytes, List.utf8Encode, List.data_toByteArray]

theorem byte_lt {m n : Nat} (h : m < n) (hn : n < 256) : UInt8.ofNat m < UInt8.ofNat n := by
  rw [UInt8.lt_iff_toNat_lt, UInt8.toNat_ofNat', UInt8.toNat_ofNat', Nat.mod_eq_of_lt (by omega),
    Nat.mod_eq_of_lt hn]
  exact h

/-- Bytes are compared by the first one, and where it is the same by the others. -/
theorem byte_lex {m n : Nat} {P : Prop} (hle : m ≤ n) (hn : n < 256) (h : m = n → P) :
    UInt8.ofNat m < UInt8.ofNat n ∨ UInt8.ofNat m = UInt8.ofNat n ∧ P := by
  rcases Nat.lt_or_eq_of_le hle with hlt | rfl
  · exact .inl (byte_lt hlt hn)
  · exact .inr ⟨rfl, h rfl⟩

theorem utf8EncodeChar_append_lt {c d : Char} (h : c < d) (as bs : List UInt8) :
    String.utf8EncodeChar c ++ as < String.utf8EncodeChar d ++ bs := by
  have hcode : c.val.toNat < d.val.toNat := h
  have hlast : d.val.toNat < 0x110000 := by
    rcases d.valid with hlow | ⟨-, hhigh⟩
    · exact Nat.lt_trans hlow (by decide)
    · exact hhigh
  unfold String.utf8EncodeChar
  dsimp only
  generalize c.val.toNat = v at *
  generalize d.val.toNat = w at *
  clear h
  split_ifs <;> simp only [List.cons_append, List.nil_append, List.cons_lt_cons_iff] <;> try omega
  -- one byte before one to four bytes
  · exact .inl (byte_lt (by omega) (by omega))
  · exact .inl (byte_lt (by omega) (by omega))
  · exact .inl (byte_lt (by omega) (by omega))
  · exact .inl (byte_lt (by omega) (by omega))
  -- two bytes before two to four
  · exact byte_lex (by omega) (by omega) fun _ => .inl (byte_lt (by omega) (by omega))
  · exact .inl (byte_lt (by omega) (by omega))
  · exact .inl (byte_lt (by omega) (by omega))
  -- three bytes before three or four
  · exact byte_lex (by omega) (by omega) fun _ => byte_lex (by omega) (by omega) fun _ =>
      .inl (byte_lt (by omega) (by omega))
  · exact .inl (byte_lt (by omega) (by omega))
  -- four bytes before four
  · exact byte_lex (by omega) (by omega) fun _ => byte_lex (by omega) (by omega) fun _ =>
      byte_lex (by omega) (by omega) fun _ => .inl (byte_lt (by omega) (by omega))

theorem flatMap_utf8EncodeChar_lt {cs ds : List Char} (h : cs < ds) :
    cs.flatMap String.utf8EncodeChar < ds.flatMap String.utf8EncodeChar := by
  induction h with
  | @nil d ds =>
    rw [List.flatMap_nil, List.flatMap_cons]
    obtain ⟨b, bs, hbytes⟩ := List.exists_cons_of_ne_nil (String.utf8EncodeChar_ne_nil (c := d))
    rw [hbytes]
    exact .nil
  | rel hlt => exact utf8EncodeChar_append_lt hlt _ _
  | cons _ ih => exact List.append_left_lt ih

theorem bytes_lt_bytes {s t : String} (h : s < t) : bytes s < bytes t := by
  rw [bytes_eq, bytes_eq]
  exact flatMap_utf8EncodeChar_lt (String.lt_iff.mp h)

end PenPlot.Text
