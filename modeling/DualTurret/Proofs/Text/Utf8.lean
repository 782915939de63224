import DualTurret.Text.Utf8
import Mathlib.Tactic.Common

/-!
# UTF-8 there and back

The bytes of a character are read as one piece: the first byte announces how many follow, each
of them lies in its range, and their payloads add up to the code point again.  So a text is
what its bytes decode to.  The ranges leave room for no other bytes: what is read as a piece is
the bytes of the character.

Main facts:
* `Utf8.decode?_encode`: a text comes back from its bytes;
* `Utf8.decode?_eq_some_iff`: bytes decode to a text exactly if they are the bytes of it.
-/

namespace DualTurret
namespace Utf8

/-- A byte in range adds its six low bits to the payload. -/
theorem follow_cons
    (payload : Nat)
    {low high bits : Nat}
    (hbits : bits < 64)
    (hlow : low ≤ bits + 0x80)
    (hhigh : bits + 0x80 ≤ high)
    (ranges : List (Nat × Nat))
    (bytes : List UInt8) :
    follow payload ((low, high) :: ranges) (UInt8.ofNat (bits + 0x80) :: bytes) =
      ((follow (payload * 64 + bits) ranges bytes).1,
        (follow (payload * 64 + bits) ranges bytes).2 + 1) := by
  have hbyte : (UInt8.ofNat (bits + 0x80)).toNat = bits + 0x80 :=
    UInt8.toNat_ofNat_of_lt (show bits + 0x80 < 256 by omega)
  have hpayload : (bits + 0x80) % 64 = bits := by omega
  rw [follow, hbyte, if_pos ⟨hlow, hhigh⟩, hpayload]

theorem headPiece_of_lead
    {b payload : Nat}
    {ranges : List (Nat × Nat)}
    (hb : b < 256)
    (hlead : lead? b = some (payload, ranges))
    (bytes : List UInt8) :
    headPiece (UInt8.ofNat b) bytes =
      ((follow payload ranges bytes).1.map Char.ofNat, (follow payload ranges bytes).2) := by
  have hbyte : (UInt8.ofNat b).toNat = b := UInt8.toNat_ofNat_of_lt hb
  simp [headPiece, hbyte, hlead]

section

variable {v : Nat}

/-- The first of two bytes. -/
theorem lead?_two
    (hlow : 0x80 ≤ v)
    (hhigh : v ≤ 0x7FF) :
    lead? (v / 64 % 32 + 0xC0) = some (v / 64, [(0x80, 0xBF)]) := by
  have hpayload : v / 64 % 32 = v / 64 := Nat.mod_eq_of_lt (by omega)
  rw [hpayload]
  unfold lead?
  rw [if_neg (by omega), if_pos (by omega), Nat.add_sub_cancel]

/-- The first of three bytes.  The range of the second leaves out what two bytes can say, and
the halves of surrogate pairs. -/
theorem lead?_three
    (hlow : 0x800 ≤ v)
    (hhigh : v ≤ 0xFFFF)
    (hpair : v < 0xD800 ∨ 0xDFFF < v) :
    ∃ low high, lead? (v / 4096 % 16 + 0xE0) = some (v / 4096, [(low, high), (0x80, 0xBF)]) ∧
      low ≤ v / 64 % 64 + 0x80 ∧ v / 64 % 64 + 0x80 ≤ high := by
  have hpayload : v / 4096 % 16 = v / 4096 := Nat.mod_eq_of_lt (by omega)
  rw [hpayload]
  unfold lead?
  rw [if_neg (by omega), if_neg (by omega)]
  by_cases hfirst : v / 4096 = 0
  · rw [if_pos (by omega), hfirst]
    exact ⟨_, _, rfl, by omega, by omega⟩
  rw [if_neg (by omega)]
  by_cases hsurrogate : v / 4096 = 0xD
  · rw [if_pos (by omega), hsurrogate]
    exact ⟨_, _, rfl, by omega, by omega⟩
  rw [if_neg (by omega), if_pos (by omega), Nat.add_sub_cancel]
  exact ⟨_, _, rfl, by omega, by omega⟩

/-- The first of four bytes.  The range of the second leaves out what three bytes can say, and
what lies past the code points. -/
theorem lead?_four
    (hlow : 0x10000 ≤ v)
    (hhigh : v ≤ 0x10FFFF) :
    ∃ low high, lead? (v / 262144 % 8 + 0xF0) =
        some (v / 262144, [(low, high), (0x80, 0xBF), (0x80, 0xBF)]) ∧
      low ≤ v / 4096 % 64 + 0x80 ∧ v / 4096 % 64 + 0x80 ≤ high := by
  have hpayload : v / 262144 % 8 = v / 262144 := Nat.mod_eq_of_lt (by omega)
  rw [hpayload]
  unfold lead?
  rw [if_neg (by omega), if_neg (by omega), if_neg (by omega), if_neg (by omega),
    if_neg (by omega)]
  by_cases hfirst : v / 262144 = 0
  · rw [if_pos (by omega), hfirst]
    exact ⟨_, _, rfl, by omega, by omega⟩
  rw [if_neg (by omega)]
  by_cases hlast : v / 262144 = 4
  · rw [if_neg (by omega), if_pos (by omega), hlast]
    exact ⟨_, _, rfl, by omega, by omega⟩
  rw [if_pos (by omega), Nat.add_sub_cancel]
  exact ⟨_, _, rfl, by omega, by omega⟩

end

theorem piecesFrom_length
    (tail bytes : List UInt8) :
    piecesFrom tail.length (tail ++ bytes) = pieces bytes := by
  induction tail with
  | nil => rfl
  | cons b tail ih => exact ih

theorem pieces_of_headPiece
    (tail : List UInt8)
    {b : UInt8}
    {bytes : List UInt8}
    {c : Char}
    (h : headPiece b (tail ++ bytes) = (some c, tail.length)) :
    pieces (b :: (tail ++ bytes)) = some c :: pieces bytes := by
  rw [← piecesFrom_length tail bytes]
  simp only [pieces, piecesFrom, h]

/-- The bytes of a character are one piece. -/
theorem pieces_encodeChar
    (c : Char)
    (bytes : List UInt8) :
    pieces (String.utf8EncodeChar c ++ bytes) = some c :: pieces bytes := by
  have hvalid := c.valid
  simp only [UInt32.isValidChar, Nat.isValidChar] at hvalid
  have hchar : Char.ofNat c.val.toNat = c := Char.ofNat_toNat c
  unfold String.utf8EncodeChar
  dsimp only
  generalize c.val.toNat = v at hvalid hchar
  have hlast : v % 64 < 64 := Nat.mod_lt v (by decide)
  split_ifs with hone htwo hthree
  · have hlead : lead? v = some (v, []) := by rw [lead?, if_pos (by omega)]
    apply pieces_of_headPiece []
    rw [headPiece_of_lead (by omega) hlead]
    simp [follow, hchar]
  · have hlead := lead?_two (by omega) htwo
    have hvalue : v / 64 * 64 + v % 64 = v := by omega
    apply pieces_of_headPiece [_]
    rw [headPiece_of_lead (by omega) hlead, List.singleton_append,
      follow_cons _ hlast (by omega) (by omega), hvalue]
    simp [follow, hchar]
  · obtain ⟨low, high, hlead, hlow, hhigh⟩ := lead?_three (by omega) hthree (by omega)
    have hvalue : (v / 4096 * 64 + v / 64 % 64) * 64 + v % 64 = v := by omega
    apply pieces_of_headPiece [_, _]
    rw [headPiece_of_lead (by omega) hlead, List.cons_append, List.singleton_append,
      follow_cons _ (Nat.mod_lt _ (by decide)) hlow hhigh,
      follow_cons _ hlast (by omega) (by omega), hvalue]
    simp [follow, hchar]
  · obtain ⟨low, high, hlead, hlow, hhigh⟩ := lead?_four (show 0x10000 ≤ v by omega) (by omega)
    have hvalue : ((v / 262144 * 64 + v / 4096 % 64) * 64 + v / 64 % 64) * 64 + v % 64 = v := by
      omega
    apply pieces_of_headPiece [_, _, _]
    rw [headPiece_of_lead (by omega) hlead, List.cons_append, List.cons_append,
      List.singleton_append, follow_cons _ (Nat.mod_lt _ (by decide)) hlow hhigh,
      follow_cons _ (Nat.mod_lt _ (by decide)) (by omega) (by omega),
      follow_cons _ hlast (by omega) (by omega), hvalue]
    simp [follow, hchar]

/-- Encoded characters are read one by one. -/
theorem pieces_encode (t : Text) : pieces (encode t) = t.map some := by
  induction t with
  | nil => rfl
  | cons c t ih => rw [encode, List.flatMap_cons, pieces_encodeChar, ← encode, ih, List.map_cons]

/-- The bytes of a text decode to it. -/
theorem decode?_encode (t : Text) : decode? (encode t) = some t := by
  rw [decode?, pieces_encode]
  induction t with
  | nil => rfl
  | cons c t ih => simp [List.mapM_cons, ih]

/-! ## No other bytes -/

/-- What a first byte announces, by the number of bytes that follow. -/
theorem lead?_cases
    {b payload : Nat}
    {ranges : List (Nat × Nat)}
    (h : lead? b = some (payload, ranges)) :
    (b < 0x80 ∧ payload = b ∧ ranges = []) ∨
    (0xC2 ≤ b ∧ b ≤ 0xDF ∧ payload = b - 0xC0 ∧ ranges = [(0x80, 0xBF)]) ∨
    (∃ low high, 0xE0 ≤ b ∧ b ≤ 0xEF ∧ payload = b - 0xE0 ∧
      ranges = [(low, high), (0x80, 0xBF)] ∧ 0x80 ≤ low ∧ high ≤ 0xBF ∧
      (b = 0xE0 → 0xA0 ≤ low) ∧ (b = 0xED → high ≤ 0x9F)) ∨
    (∃ low high, 0xF0 ≤ b ∧ b ≤ 0xF4 ∧ payload = b - 0xF0 ∧
      ranges = [(low, high), (0x80, 0xBF), (0x80, 0xBF)] ∧ 0x80 ≤ low ∧ high ≤ 0xBF ∧
      (b = 0xF0 → 0x90 ≤ low) ∧ (b = 0xF4 → high ≤ 0x8F)) := by
  unfold lead? at h
  dsimp only at h
  split_ifs at h with hone htwo hzero hpair hthree hfirst hfour hlast
  all_goals obtain ⟨rfl, rfl⟩ := Prod.mk.inj (Option.some.inj h)
  · exact .inl ⟨hone, rfl, rfl⟩
  · exact .inr (.inl ⟨htwo.1, htwo.2, rfl, rfl⟩)
  · exact .inr (.inr (.inl ⟨_, _, by omega, by omega, by omega, rfl, by omega⟩))
  · exact .inr (.inr (.inl ⟨_, _, by omega, by omega, by omega, rfl, by omega⟩))
  · exact .inr (.inr (.inl ⟨_, _, by omega, by omega, by omega, rfl, by omega⟩))
  · exact .inr (.inr (.inr ⟨_, _, by omega, by omega, by omega, rfl, by omega⟩))
  · exact .inr (.inr (.inr ⟨_, _, by omega, by omega, by omega, rfl, by omega⟩))
  · exact .inr (.inr (.inr ⟨_, _, by omega, by omega, by omega, rfl, by omega⟩))

/-- Where a byte must follow, one in range does. -/
theorem exists_of_follow_cons
    {payload low high code taken : Nat}
    {ranges : List (Nat × Nat)}
    {bytes : List UInt8}
    (h : follow payload ((low, high) :: ranges) bytes = (some code, taken)) :
    ∃ (b : UInt8) (rest : List UInt8) (others : Nat), bytes = b :: rest ∧ taken = others + 1 ∧
      low ≤ b.toNat ∧ b.toNat ≤ high ∧
      follow (payload * 64 + b.toNat % 64) ranges rest = (some code, others) := by
  cases bytes with
  | nil => cases h
  | cons b rest =>
      rw [follow] at h
      split_ifs at h with hrange
      · obtain ⟨hcode, htaken⟩ := Prod.mk.inj h
        exact ⟨b, rest, _, rfl, htaken.symm, hrange.1, hrange.2, Prod.ext hcode rfl⟩
      · cases h

theorem of_follow_nil
    {payload code taken : Nat}
    {bytes : List UInt8}
    (h : follow payload [] bytes = (some code, taken)) :
    code = payload ∧ taken = 0 := by
  obtain ⟨hcode, htaken⟩ := Prod.mk.inj h
  exact ⟨(Option.some.inj hcode).symm, htaken.symm⟩

theorem toNat_ofNat
    {v : Nat}
    (h : v < 0xD800 ∨ 0xDFFF < v ∧ v < 0x110000) :
    (Char.ofNat v).val.toNat = v := by
  rw [Char.ofNat, dif_pos h]
  rfl

/-- A byte is given by its number. -/
theorem ofNat_eq_of_toNat {b : UInt8} {n : Nat} (h : n = b.toNat) : UInt8.ofNat n = b := by
  rw [h, UInt8.ofNat_toNat]

/-- The bytes that are read as a character are the bytes of it. -/
theorem encodeChar_of_headPiece
    {b : UInt8}
    {bytes : List UInt8}
    {c : Char}
    {taken : Nat}
    (h : headPiece b bytes = (some c, taken)) :
    ∃ tail rest, bytes = tail ++ rest ∧ taken = tail.length ∧
      String.utf8EncodeChar c = b :: tail := by
  unfold headPiece at h
  split at h
  · cases h
  rename_i payload ranges hlead
  obtain ⟨hcode, htaken⟩ := Prod.mk.inj h
  obtain ⟨code, hsome, rfl⟩ := Option.map_eq_some_iff.mp hcode
  have hfollow : follow payload ranges bytes = (some code, taken) := Prod.ext hsome htaken
  have hbyte : b.toNat < 256 := b.toNat_lt
  rcases lead?_cases hlead with ⟨hb, hpayload, rfl⟩ | ⟨hlow, hhigh, hpayload, rfl⟩ |
    ⟨low, high, hlow, hhigh, hpayload, rfl, hrange⟩ |
    ⟨low, high, hlow, hhigh, hpayload, rfl, hrange⟩
  · obtain ⟨rfl, rfl⟩ := of_follow_nil hfollow
    refine ⟨[], bytes, rfl, rfl, ?_⟩
    rw [String.utf8EncodeChar, toNat_ofNat (by omega), if_pos (by omega),
      ofNat_eq_of_toNat hpayload]
  · obtain ⟨b₁, rest, _, rfl, rfl, hlow₁, hhigh₁, hfollow⟩ := exists_of_follow_cons hfollow
    obtain ⟨rfl, rfl⟩ := of_follow_nil hfollow
    refine ⟨[b₁], rest, rfl, rfl, ?_⟩
    rw [String.utf8EncodeChar, toNat_ofNat (by omega), if_neg (by omega), if_pos (by omega),
      ofNat_eq_of_toNat (b := b) (by omega), ofNat_eq_of_toNat (b := b₁) (by omega)]
  · obtain ⟨b₁, rest, _, rfl, rfl, hlow₁, hhigh₁, hfollow⟩ := exists_of_follow_cons hfollow
    obtain ⟨b₂, rest, _, rfl, rfl, hlow₂, hhigh₂, hfollow⟩ := exists_of_follow_cons hfollow
    obtain ⟨rfl, rfl⟩ := of_follow_nil hfollow
    refine ⟨[b₁, b₂], rest, rfl, rfl, ?_⟩
    rw [String.utf8EncodeChar, toNat_ofNat (by omega), if_neg (by omega), if_neg (by omega),
      if_pos (by omega), ofNat_eq_of_toNat (b := b) (by omega),
      ofNat_eq_of_toNat (b := b₁) (by omega), ofNat_eq_of_toNat (b := b₂) (by omega)]
  · obtain ⟨b₁, rest, _, rfl, rfl, hlow₁, hhigh₁, hfollow⟩ := exists_of_follow_cons hfollow
    obtain ⟨b₂, rest, _, rfl, rfl, hlow₂, hhigh₂, hfollow⟩ := exists_of_follow_cons hfollow
    obtain ⟨b₃, rest, _, rfl, rfl, hlow₃, hhigh₃, hfollow⟩ := exists_of_follow_cons hfollow
    obtain ⟨rfl, rfl⟩ := of_follow_nil hfollow
    refine ⟨[b₁, b₂, b₃], rest, rfl, rfl, ?_⟩
    rw [String.utf8EncodeChar, toNat_ofNat (by omega), if_neg (by omega), if_neg (by omega),
      if_neg (by omega), ofNat_eq_of_toNat (b := b) (by omega),
      ofNat_eq_of_toNat (b := b₁) (by omega), ofNat_eq_of_toNat (b := b₂) (by omega),
      ofNat_eq_of_toNat (b := b₃) (by omega)]

/-- Well-formed bytes are the bytes of the characters read. -/
theorem encode_of_pieces
    {bytes : List UInt8}
    {t : Text}
    (h : pieces bytes = t.map some) :
    encode t = bytes := by
  induction t generalizing bytes with
  | nil =>
      cases bytes with
      | nil => rfl
      | cons b bytes => cases h
  | cons c t ih =>
      cases bytes with
      | nil => cases h
      | cons b bytes =>
          rcases hhead : headPiece b bytes with ⟨piece, taken⟩
          rw [pieces, piecesFrom, hhead] at h
          obtain ⟨rfl, hrest⟩ := List.cons.inj h
          obtain ⟨tail, rest, rfl, rfl, hchar⟩ := encodeChar_of_headPiece hhead
          rw [piecesFrom_length] at hrest
          rw [encode, List.flatMap_cons, hchar, ← encode, ih hrest, List.cons_append]

/-- A text comes out exactly if every piece is a character. -/
theorem mapM_id_eq_some_iff
    {pieces : List (Option Char)}
    {t : Text} :
    pieces.mapM id = some t ↔ pieces = t.map some := by
  induction pieces generalizing t with
  | nil => cases t <;> simp
  | cons piece pieces ih =>
      cases piece with
      | none => cases t <;> simp [List.mapM_cons]
      | some c =>
          cases t with
          | nil => simp [List.mapM_cons, Option.bind_eq_some_iff]
          | cons d t => simp [List.mapM_cons, Option.bind_eq_some_iff, ← ih, and_comm]

/-- Bytes decode to a text exactly if they are the bytes of it. -/
theorem decode?_eq_some_iff
    {bytes : List UInt8}
    {t : Text} :
    decode? bytes = some t ↔ bytes = encode t := by
  constructor
  · intro h
    exact (encode_of_pieces (mapM_id_eq_some_iff.mp h)).symm
  · rintro rfl
    exact decode?_encode t

end Utf8
end DualTurret
