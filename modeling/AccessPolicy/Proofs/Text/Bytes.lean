import AccessPolicy.Proofs.Text.Position
import Mathlib.Data.List.Basic

/-! The bytes of a text in UTF-8. The order of texts by code points is their order by bytes, and the
position of a colon is the number of bytes before it, at which the text can be sliced. -/

namespace AccessPolicy.Text

/-- The bytes of a text in UTF-8. -/
def bytes (text : String) : List UInt8 := text.toUTF8.data.toList

theorem bytes_eq_flatMap (text : String) :
    bytes text = text.toList.flatMap String.utf8EncodeChar := by
  rw [bytes, String.toUTF8_eq_toByteArray, ← String.utf8Encode_toList, List.utf8Encode,
    List.toList_data_toByteArray]

theorem length_bytes (text : String) : (bytes text).length = text.utf8ByteSize := rfl

theorem bytes_append_colon (before after : String) :
    bytes (before ++ ":" ++ after) = bytes before ++ 58 :: bytes after := by
  rw [bytes_eq_flatMap, toList_append_colon, List.flatMap_append, List.flatMap_cons,
    ← bytes_eq_flatMap, ← bytes_eq_flatMap]
  rfl

theorem byteLength_eq_length (cs : List Char) :
    byteLength cs = (cs.flatMap String.utf8EncodeChar).length := by
  induction cs with
  | nil => rfl
  | cons c cs ih =>
    rw [byteLength_cons, ih, List.flatMap_cons, List.length_append, String.length_utf8EncodeChar]

theorem byteLength_toList (text : String) : byteLength text.toList = text.utf8ByteSize := by
  rw [byteLength_eq_length, ← bytes_eq_flatMap, length_bytes]

/-! ### Order -/

/-- Characters are ordered as their bytes are. -/
theorem utf8EncodeChar_append_lt {c d : Char} (h : c < d) (xs ys : List UInt8) :
    String.utf8EncodeChar c ++ xs < String.utf8EncodeChar d ++ ys := by
  have hlt : c.val.toNat < d.val.toNat := h
  have hbound : d.val.toNat < 1114112 := by
    rcases d.valid with hd | ⟨-, hd⟩
    · exact Nat.lt_trans hd (by decide)
    · exact hd
  unfold String.utf8EncodeChar
  generalize c.val.toNat = v at hlt
  generalize d.val.toNat = w at hlt hbound
  -- the bytes are digits to base 64, taken off the code one by one
  have htwo : ∀ n, n / 4096 = n / 64 / 64 := fun n => (Nat.div_div_eq_div_mul n 64 64).symm
  have hthree : ∀ n, n / 262144 = n / 64 / 64 / 64 := by
    intro n
    rw [Nat.div_div_eq_div_mul, Nat.div_div_eq_div_mul]
  -- of encodings with a different number of bytes, the longer one has the greater first byte
  dsimp only
  split_ifs <;>
    simp only [List.cons_append, List.nil_append, List.cons_lt_cons_iff, UInt8.lt_iff_toNat_lt,
      UInt8.toNat_ofNat', ← UInt8.toNat_inj, htwo, hthree] <;>
    omega

theorem flatMap_utf8EncodeChar_lt {cs ds : List Char} (h : cs < ds) :
    cs.flatMap String.utf8EncodeChar < ds.flatMap String.utf8EncodeChar := by
  induction cs generalizing ds with
  | nil =>
    cases ds with
    | nil => exact absurd h (List.lt_irrefl [])
    | cons d ds =>
      obtain ⟨b, bs, hb⟩ := List.exists_cons_of_ne_nil (String.utf8EncodeChar_ne_nil (c := d))
      rw [List.flatMap_nil, List.flatMap_cons, hb]
      exact List.nil_lt_cons _ _
  | cons c cs ih =>
    cases ds with
    | nil => exact absurd h (List.not_lt_nil _)
    | cons d ds =>
      rw [List.flatMap_cons, List.flatMap_cons]
      rcases List.cons_lt_cons_iff.mp h with hlt | ⟨rfl, hlt⟩
      · exact utf8EncodeChar_append_lt hlt _ _
      · exact List.append_left_lt (ih hlt)

/-- Texts are ordered as their bytes are. -/
theorem bytes_lt_bytes {a b : String} (h : a < b) : bytes a < bytes b := by
  rw [bytes_eq_flatMap, bytes_eq_flatMap]
  exact flatMap_utf8EncodeChar_lt (String.lt_iff.mp h)

/-! ### Positions -/

theorem isValid_before_colon (before after : String) :
    (⟨before.utf8ByteSize⟩ : String.Pos.Raw).IsValid (before ++ ":" ++ after) := by
  rw [String.Pos.Raw.isValid_iff_exists_append]
  exact ⟨before, ":" ++ after, String.append_assoc, rfl⟩

theorem isValid_after_colon (before after : String) :
    (⟨before.utf8ByteSize + 1⟩ : String.Pos.Raw).IsValid (before ++ ":" ++ after) := by
  have hsize : (before ++ ":").utf8ByteSize = before.utf8ByteSize + 1 := by
    rw [String.utf8ByteSize_append]
    rfl
  rw [String.Pos.Raw.isValid_iff_exists_append]
  exact ⟨before ++ ":", after, rfl, by rw [← hsize]; rfl⟩

end AccessPolicy.Text
