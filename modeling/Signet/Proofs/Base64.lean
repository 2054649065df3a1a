import Mathlib.Data.List.Basic
import Signet.Base64

/-! The base-64 text of a byte string is read back. The text is first split into the values of its
symbols and its padding. -/
namespace Signet.Base64

/-- The values of the symbols that a byte string is written with. -/
def symbolValues : Bytes → List Nat
  | [] => []
  | [a] => [a.toNat / 4, a.toNat % 4 * 16]
  | [a, b] => [a.toNat / 4, a.toNat % 4 * 16 + b.toNat / 16, b.toNat % 16 * 4]
  | a :: b :: c :: rest =>
      a.toNat / 4 :: (a.toNat % 4 * 16 + b.toNat / 16) :: (b.toNat % 16 * 4 + c.toNat / 64) ::
        c.toNat % 64 :: symbolValues rest

/-- The number of padding characters after these symbols. -/
def padding : Bytes → Nat
  | [] => 0
  | [_] => 2
  | [_, _] => 1
  | _ :: _ :: _ :: rest => padding rest

theorem encodeBytes_eq (bytes : Bytes) :
    encodeBytes bytes = (symbolValues bytes).map symbol ++ List.replicate (padding bytes) pad := by
  fun_induction encodeBytes bytes with
  | case1 => rfl
  | case2 a => rfl
  | case3 a b => rfl
  | case4 a b c rest ih => rw [ih]; rfl

theorem length_symbolValues (bytes : Bytes) :
    padding bytes ≤ 2 ∧ ((symbolValues bytes).length + padding bytes) % 4 = 0 := by
  fun_induction symbolValues bytes with
  | case1 => decide
  | case2 a => simp [padding]
  | case3 a b => simp [padding]
  | case4 a b c rest ih =>
      simp only [padding, List.length_cons]
      omega

theorem symbolValues_lt (bytes : Bytes) : ∀ value ∈ symbolValues bytes, value < 64 := by
  fun_induction symbolValues bytes with
  | case1 => simp
  | case2 a =>
      have ha := a.toNat_lt
      simp only [List.mem_cons, List.not_mem_nil, or_false, forall_eq_or_imp, forall_eq]
      omega
  | case3 a b =>
      have ha := a.toNat_lt
      have hb := b.toNat_lt
      simp only [List.mem_cons, List.not_mem_nil, or_false, forall_eq_or_imp, forall_eq]
      omega
  | case4 a b c rest ih =>
      have ha := a.toNat_lt
      have hb := b.toNat_lt
      have hc := c.toNat_lt
      simp only [List.mem_cons, forall_eq_or_imp]
      exact ⟨by omega, by omega, by omega, by omega, ih⟩

theorem joinValues_symbolValues (bytes : Bytes) : joinValues (symbolValues bytes) = bytes := by
  fun_induction symbolValues bytes with
  | case1 => rfl
  | case2 a =>
      have ha := a.toNat_lt
      have hFirst : a.toNat / 4 * 4 + a.toNat % 4 * 16 / 16 = a.toNat := by omega
      simp only [joinValues, hFirst, UInt8.ofNat_toNat]
  | case3 a b =>
      have ha := a.toNat_lt
      have hb := b.toNat_lt
      have hFirst : a.toNat / 4 * 4 + (a.toNat % 4 * 16 + b.toNat / 16) / 16 = a.toNat := by omega
      have hSecond : (a.toNat % 4 * 16 + b.toNat / 16) % 16 * 16 + b.toNat % 16 * 4 / 4 = b.toNat := by
        omega
      simp only [joinValues, hFirst, hSecond, UInt8.ofNat_toNat]
  | case4 a b c rest ih =>
      have ha := a.toNat_lt
      have hb := b.toNat_lt
      have hc := c.toNat_lt
      have hFirst : a.toNat / 4 * 4 + (a.toNat % 4 * 16 + b.toNat / 16) / 16 = a.toNat := by omega
      have hSecond : (a.toNat % 4 * 16 + b.toNat / 16) % 16 * 16 +
          (b.toNat % 16 * 4 + c.toNat / 64) / 4 = b.toNat := by omega
      have hThird : (b.toNat % 16 * 4 + c.toNat / 64) % 4 * 64 + c.toNat % 64 = c.toNat := by omega
      simp only [joinValues, hFirst, hSecond, hThird, UInt8.ofNat_toNat, ih]

theorem hasStrayBits_congr {left right : List Nat} (hLength : left.length % 4 = right.length % 4)
    (hLast : left.getLast? = right.getLast?) : hasStrayBits left = hasStrayBits right := by
  rw [hasStrayBits, hasStrayBits, hLength, hLast]

/-- The last symbol of a byte string has no bits to spare. -/
theorem hasStrayBits_symbolValues (bytes : Bytes) : hasStrayBits (symbolValues bytes) = false := by
  fun_induction symbolValues bytes with
  | case1 => rfl
  | case2 a => simp [hasStrayBits]
  | case3 a b => simp [hasStrayBits]
  | case4 a b c rest ih =>
      cases hRest : symbolValues rest with
      | nil => simp [hasStrayBits]
      | cons value values =>
          rw [← ih, hRest]
          exact hasStrayBits_congr (by simp only [List.length_cons]; omega) (by simp)

theorem value?_symbol {value : Nat} (h : value < 64) : value? (symbol value) = some value := by
  have hAll : ∀ value < 64, value? (symbol value) = some value := by decide
  exact hAll value h

theorem symbol_ne_pad {value : Nat} (h : value < 64) : symbol value ≠ pad := by
  have hAll : ∀ value < 64, symbol value ≠ pad := by decide
  exact hAll value h

theorem values_map_symbol (offset : Nat) (read : List Nat) (hRead : ∀ value ∈ read, value < 64) :
    values offset (read.map symbol) = .ok read := by
  induction read generalizing offset with
  | nil => rfl
  | cons value read ih =>
      obtain ⟨hValue, hRead⟩ := List.forall_mem_cons.mp hRead
      rw [List.map_cons, values, value?_symbol hValue]
      simp only [ih _ hRead, Except.map]

theorem lastValues_replicate_pad (start index : Nat) (firstPad : Option Nat) {count : Nat}
    (hIndex : ∀ offset < count, 2 ≤ (index + offset) % 4) :
    lastValues start index firstPad (List.replicate count pad) = .ok ([], count) := by
  induction count generalizing index firstPad with
  | zero => rfl
  | succ count ih =>
      have hFirst : ¬index % 4 < 2 := Nat.not_lt.mpr (hIndex 0 (Nat.succ_pos _))
      have hNext := ih (index + 1) (some (firstPad.getD index)) fun offset hOffset => by
        have hLater := hIndex (offset + 1) (Nat.succ_lt_succ hOffset)
        rwa [Nat.add_assoc, Nat.add_comm 1]
      rw [List.replicate_succ, lastValues.eq_def]
      simp only [if_pos, if_neg hFirst, hNext]
      rfl

theorem lastValues_map_symbol (start index : Nat) (read : List Nat) (count : Nat)
    (hRead : ∀ value ∈ read, value < 64)
    (hIndex : ∀ offset < count, 2 ≤ (index + read.length + offset) % 4) :
    lastValues start index none (read.map symbol ++ List.replicate count pad) = .ok (read, count) := by
  induction read generalizing index with
  | nil => exact lastValues_replicate_pad start index none hIndex
  | cons value read ih =>
      obtain ⟨hValue, hRead⟩ := List.forall_mem_cons.mp hRead
      have hNext := ih (index + 1) hRead fun offset hOffset => by
        have hLater := hIndex offset hOffset
        rwa [List.length_cons, Nat.add_comm read.length, ← Nat.add_assoc] at hLater
      rw [List.map_cons, List.cons_append, lastValues, if_neg (symbol_ne_pad hValue)]
      simp only [value?_symbol hValue, hNext, Except.map]

/-- A text in whole groups is decoded if both of its parts are read and no bits are left over. -/
theorem decodeBytes_eq_ok {text : Bytes} {start : Nat} (hText : text ≠ [])
    (hStart : (text.length - 1) / 8 * 8 = start) (hWhole : text.length % 4 = 0) {front back : List Nat}
    {count : Nat} (hFront : values 0 (text.take start) = .ok front)
    (hBack : lastValues start 0 none (text.drop start) = .ok (back, count))
    (hFull : (back.length + count) % 4 = 0) (hStray : hasStrayBits back = false) :
    decodeBytes text = .ok (joinValues (front ++ back)) := by
  have hLone : ¬text.length % 4 = 1 := by omega
  have hFilled : ¬(back.length + count) % 4 ≠ 0 := not_not.mpr hFull
  rw [decodeBytes, List.getLast?_eq_some_getLast hText]
  simp only [if_neg hLone, hStart, hFront, hBack, bind, Except.bind, if_neg hFilled, hStray]
  rfl

/-- Symbols with the padding that fills them up to whole groups are read as their values. -/
theorem decodeBytes_map_symbol {read : List Nat} (hRead : ∀ value ∈ read, value < 64) {count : Nat}
    (hCount : count ≤ 2) (hGroups : (read.length + count) % 4 = 0)
    (hStray : hasStrayBits read = false) :
    decodeBytes (read.map symbol ++ List.replicate count pad) = .ok (joinValues read) := by
  cases read with
  | nil =>
      obtain rfl : count = 0 := by rw [List.length_nil] at hGroups; omega
      rfl
  | cons value rest =>
      generalize hSymbols : value :: rest = read at *
      have hPositive : 0 < read.length := by rw [← hSymbols]; exact Nat.succ_pos _
      have hLength : (read.map symbol ++ List.replicate count pad).length = read.length + count := by
        simp
      -- The padding is shorter than a group, so that it lies behind the start of the last part.
      obtain ⟨start, hStart, hGroup, hBefore⟩ : ∃ start, (read.length + count - 1) / 8 * 8 = start ∧
          start % 4 = 0 ∧ start < read.length := ⟨_, rfl, by omega, by omega⟩
      have hInside : start ≤ (read.map symbol).length := by rw [List.length_map]; omega
      have hFront := values_map_symbol 0 (read.take start) fun value hValue =>
        hRead value (List.mem_of_mem_take hValue)
      have hBack := lastValues_map_symbol start 0 (read.drop start) count
        (fun value hValue => hRead value (List.mem_of_mem_drop hValue)) fun offset hOffset => by
          rw [List.length_drop]
          omega
      have hLast : (read.drop start).getLast? = read.getLast? := by
        rw [List.getLast?_drop, if_neg (Nat.not_le.mpr hBefore)]
      rw [List.map_take, ← List.take_append_of_le_length hInside] at hFront
      rw [List.map_drop, ← List.drop_append_of_le_length hInside] at hBack
      have hStrayBack : hasStrayBits (read.drop start) = false := by
        rw [← hStray]
        exact hasStrayBits_congr (by rw [List.length_drop]; omega) hLast
      rw [decodeBytes_eq_ok (List.ne_nil_of_length_pos (by omega)) (by rw [hLength, hStart])
        (by rw [hLength, hGroups]) hFront hBack (by rw [List.length_drop]; omega) hStrayBack,
        List.take_append_drop]

theorem decodeBytes_encodeBytes (bytes : Bytes) : decodeBytes (encodeBytes bytes) = .ok bytes := by
  obtain ⟨hCount, hGroups⟩ := length_symbolValues bytes
  rw [encodeBytes_eq, decodeBytes_map_symbol (symbolValues_lt bytes) hCount hGroups
    (hasStrayBits_symbolValues bytes), joinValues_symbolValues]

/-- The characters of the base-64 form take one byte each. -/
theorem encodeBytes_lt (bytes : Bytes) : ∀ byte ∈ encodeBytes bytes, byte.toNat < 128 := by
  have hSymbol : ∀ value < 64, (symbol value).toNat < 128 := by decide
  intro byte hByte
  rw [encodeBytes_eq, List.mem_append, List.mem_map] at hByte
  rcases hByte with ⟨value, hValue, rfl⟩ | hPad
  · exact hSymbol value (symbolValues_lt bytes value hValue)
  · rw [List.eq_of_mem_replicate hPad]
    decide

/-- A text of ASCII characters has their codes as its bytes. -/
theorem toUTF8_ofList {bytes : Bytes} (h : ∀ byte ∈ bytes, byte.toNat < 128) :
    (String.ofList (bytes.map fun byte => Char.ofNat byte.toNat)).toUTF8.data.toList = bytes := by
  have hCode : ∀ code < 128, String.utf8EncodeChar (Char.ofNat code) = [UInt8.ofNat code] := by decide
  rw [String.toUTF8_eq_toByteArray, String.toByteArray_ofList, List.utf8Encode, List.data_toByteArray]
  induction bytes with
  | nil => rfl
  | cons byte rest ih =>
      obtain ⟨hByte, hRest⟩ := List.forall_mem_cons.mp h
      rw [List.map_cons, List.flatMap_cons, hCode _ hByte, UInt8.ofNat_toNat]
      exact congrArg (byte :: ·) (ih hRest)

/-- Decoding gives back every byte string that was encoded. -/
theorem decode_encode (bytes : Bytes) : decode (encode bytes) = .ok bytes := by
  rw [decode, encode, toUTF8_ofList (encodeBytes_lt bytes), decodeBytes_encodeBytes]

end Signet.Base64
