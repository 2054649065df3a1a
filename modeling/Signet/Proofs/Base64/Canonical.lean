import Signet.Proofs.Base64

/-! A byte string has one base-64 text. What a text is decoded to determines its symbols and its padding,
so decoding accepts nothing but what encoding writes. -/
namespace Signet.Base64

theorem eq_symbol_of_value?_eq_some {byte : UInt8} {value : Nat} (h : value? byte = some value) :
    value < 64 ∧ byte = symbol value := by
  have hAll : ∀ code < 256, ∀ value ∈ value? (UInt8.ofNat code),
      value < 64 ∧ UInt8.ofNat code = symbol value := by decide +kernel
  have hByte := hAll byte.toNat byte.toNat_lt
  rw [UInt8.ofNat_toNat] at hByte
  exact hByte value h

theorem eq_map_symbol_of_values_eq_ok {offset : Nat} {text : Bytes} {read : List Nat}
    (h : values offset text = .ok read) : (∀ value ∈ read, value < 64) ∧ text = read.map symbol := by
  induction text generalizing offset read with
  | nil =>
      obtain rfl := Except.ok.inj h
      exact ⟨List.forall_mem_nil _, rfl⟩
  | cons byte text ih =>
      rw [values] at h
      split at h
      next => cases h
      next value hValue =>
        cases hText : values (offset + 1) text with
        | error fault =>
            rw [hText] at h
            cases h
        | ok rest =>
            rw [hText] at h
            obtain rfl := Except.ok.inj h
            obtain ⟨hLess, rfl⟩ := eq_symbol_of_value?_eq_some hValue
            obtain ⟨hRest, rfl⟩ := ih hText
            exact ⟨List.forall_mem_cons.mpr ⟨hLess, hRest⟩, rfl⟩

/-- Behind the first padding character nothing but padding is read. -/
theorem eq_replicate_pad_of_lastValues_eq_ok {start index first : Nat} {text : Bytes} {read : List Nat}
    {count : Nat} (h : lastValues start index (some first) text = .ok (read, count)) :
    read = [] ∧ text = List.replicate count pad ∧ ∀ offset < count, 2 ≤ (index + offset) % 4 := by
  induction text generalizing index read count with
  | nil =>
      obtain ⟨rfl, rfl⟩ := Prod.mk.inj (Except.ok.inj h)
      exact ⟨rfl, rfl, fun offset hOffset => absurd hOffset (Nat.not_lt_zero _)⟩
  | cons byte text ih =>
      rw [lastValues] at h
      by_cases hPad : byte = pad
      · rw [if_pos hPad] at h
        split at h
        next => cases h
        next hIndex =>
          rw [Option.getD_some] at h
          cases hText : lastValues start (index + 1) (some first) text with
          | error fault =>
              rw [hText] at h
              cases h
          | ok result =>
              obtain ⟨rest, padding⟩ := result
              rw [hText] at h
              obtain ⟨rfl, rfl⟩ := Prod.mk.inj (Except.ok.inj h)
              obtain ⟨rfl, rfl, hLater⟩ := ih hText
              refine ⟨rfl, by rw [hPad, List.replicate_succ], fun offset hOffset => ?_⟩
              cases offset with
              | zero => exact Nat.not_lt.mp hIndex
              | succ offset =>
                  have hNext := hLater offset (Nat.lt_of_succ_lt_succ hOffset)
                  rwa [Nat.add_assoc, Nat.add_comm 1] at hNext
      · rw [if_neg hPad] at h
        cases h

/-- The last characters are the symbols of what is read from them, and padding that stands in the second
half of its group. -/
theorem eq_append_of_lastValues_eq_ok {start index : Nat} {text : Bytes} {read : List Nat} {count : Nat}
    (h : lastValues start index none text = .ok (read, count)) :
    (∀ value ∈ read, value < 64) ∧ text = read.map symbol ++ List.replicate count pad ∧
      ∀ offset < count, 2 ≤ (index + read.length + offset) % 4 := by
  induction text generalizing index read count with
  | nil =>
      obtain ⟨rfl, rfl⟩ := Prod.mk.inj (Except.ok.inj h)
      exact ⟨List.forall_mem_nil _, rfl,
        fun offset hOffset => absurd hOffset (Nat.not_lt_zero _)⟩
  | cons byte text ih =>
      by_cases hPad : byte = pad
      · -- The first padding character: the rest of the text is read as after any other one.
        have hSame : lastValues start index (some index) (byte :: text) = .ok (read, count) := by
          rw [← h, lastValues.eq_def start index none, lastValues.eq_def start index (some index)]
          simp only [if_pos hPad, Option.getD_some, Option.getD_none]
        obtain ⟨rfl, hText, hIndex⟩ := eq_replicate_pad_of_lastValues_eq_ok hSame
        exact ⟨List.forall_mem_nil _, hText, hIndex⟩
      · rw [lastValues, if_neg hPad] at h
        simp only at h
        split at h
        next => cases h
        next value hValue =>
          cases hText : lastValues start (index + 1) none text with
          | error fault =>
              rw [hText] at h
              cases h
          | ok result =>
              obtain ⟨rest, padding⟩ := result
              rw [hText] at h
              obtain ⟨rfl, rfl⟩ := Prod.mk.inj (Except.ok.inj h)
              obtain ⟨hLess, rfl⟩ := eq_symbol_of_value?_eq_some hValue
              obtain ⟨hRest, rfl, hLater⟩ := ih hText
              refine ⟨List.forall_mem_cons.mpr ⟨hLess, hRest⟩, rfl, fun offset hOffset => ?_⟩
              rw [List.length_cons, Nat.add_comm rest.length, ← Nat.add_assoc]
              exact hLater offset hOffset

/-- Symbols without left-over bits are those of the bytes that they are joined to, with the padding that
fills them up to whole groups. -/
theorem symbolValues_joinValues {read : List Nat} (hRead : ∀ value ∈ read, value < 64) {count : Nat}
    (hCount : count ≤ 2) (hGroups : (read.length + count) % 4 = 0) (hStray : hasStrayBits read = false) :
    symbolValues (joinValues read) = read ∧ padding (joinValues read) = count := by
  fun_induction joinValues read with
  | case1 a b c d rest ih =>
      simp only [List.forall_mem_cons] at hRead
      obtain ⟨ha, hb, hc, hd, hRest⟩ := hRead
      have hInner : (rest.length + count) % 4 = 0 := by
        simp only [List.length_cons] at hGroups
        omega
      have hStrayRest : hasStrayBits rest = false := by
        cases rest with
        | nil => rfl
        | cons value rest =>
            rw [← hStray]
            exact hasStrayBits_congr (by simp only [List.length_cons]; omega) (by simp)
      obtain ⟨hSymbols, hPadding⟩ := ih hRest hInner hStrayRest
      refine ⟨?_, hPadding⟩
      rw [symbolValues, hSymbols]
      simp only [UInt8.toNat_ofNat', List.cons.injEq, and_true]
      omega
  | case2 a b c =>
      simp only [List.forall_mem_cons] at hRead
      obtain ⟨ha, hb, hc, -⟩ := hRead
      have hLast : c % 4 = 0 := by simpa [hasStrayBits] using hStray
      simp only [symbolValues, padding, UInt8.toNat_ofNat', List.length_cons, List.length_nil,
        List.cons.injEq, and_true] at hGroups ⊢
      omega
  | case3 a b =>
      simp only [List.forall_mem_cons] at hRead
      obtain ⟨ha, hb, -⟩ := hRead
      have hLast : b % 16 = 0 := by simpa [hasStrayBits] using hStray
      simp only [symbolValues, padding, UInt8.toNat_ofNat', List.length_cons, List.length_nil,
        List.cons.injEq, and_true] at hGroups ⊢
      omega
  | case4 read hFour hThree hTwo =>
      cases read with
      | nil => exact ⟨rfl, by rw [padding]; simp only [List.length_nil] at hGroups; omega⟩
      | cons a rest =>
          cases rest with
          | nil =>
              simp only [List.length_cons, List.length_nil] at hGroups
              omega
          | cons b rest =>
              cases rest with
              | nil => exact absurd rfl (hTwo a b)
              | cons c rest =>
                  cases rest with
                  | nil => exact absurd rfl (hThree a b c)
                  | cons d rest => exact absurd rfl (hFour a b c d rest)

/-- The two parts of a text that is decoded, as symbols and padding of the joined bytes. -/
theorem eq_encodeBytes_of_parts {text : Bytes} {start : Nat} (hStart : (text.length - 1) / 8 * 8 = start)
    {front back : List Nat} {count : Nat} (hFront : values 0 (text.take start) = .ok front)
    (hBack : lastValues start 0 none (text.drop start) = .ok (back, count))
    (hFull : (back.length + count) % 4 = 0) (hStray : hasStrayBits back = false) :
    text = encodeBytes (joinValues (front ++ back)) := by
  obtain ⟨hFrontLess, hFrontText⟩ := eq_map_symbol_of_values_eq_ok hFront
  obtain ⟨hBackLess, hBackText, hIndex⟩ := eq_append_of_lastValues_eq_ok hBack
  have hCount : count ≤ 2 := by
    by_contra hMore
    have hThird := hIndex (count - 3) (by omega)
    omega
  have hFrontLength : front.length % 4 = 0 := by
    have hTake := congrArg List.length hFrontText
    rw [List.length_take, List.length_map] at hTake
    omega
  have hStrayAll : hasStrayBits (front ++ back) = false := by
    cases back with
    | nil => simp [hasStrayBits, hFrontLength]
    | cons value back =>
        rw [← hStray]
        exact hasStrayBits_congr (by rw [List.length_append]; omega)
          (List.getLast?_append_of_ne_nil front (List.cons_ne_nil value back))
  obtain ⟨hSymbols, hPadding⟩ := symbolValues_joinValues
    (List.forall_mem_append.mpr ⟨hFrontLess, hBackLess⟩) hCount
    (by rw [List.length_append]; omega) hStrayAll
  rw [encodeBytes_eq, hSymbols, hPadding, List.map_append, List.append_assoc, ← hBackText, ← hFrontText,
    List.take_append_drop]

/-- A text that decodes consists of the symbols and the padding of the bytes that it decodes to. -/
theorem eq_encodeBytes_of_decodeBytes_eq_ok {text bytes : Bytes} (h : decodeBytes text = .ok bytes) :
    text = encodeBytes bytes := by
  rw [decodeBytes] at h
  split at h
  next hNone =>
    obtain rfl := Except.ok.inj h
    exact List.getLast?_eq_none_iff.mp hNone
  next last hLast =>
    split at h
    next => split at h <;> cases h
    next =>
      generalize hStart : (text.length - 1) / 8 * 8 = start at h
      cases hFront : values 0 (text.take start) with
      | error fault =>
          simp only [hFront, bind, Except.bind] at h
          cases h
      | ok front =>
          cases hBack : lastValues start 0 none (text.drop start) with
          | error fault =>
              simp only [hFront, hBack, bind, Except.bind] at h
              cases h
          | ok result =>
              obtain ⟨back, count⟩ := result
              simp only [hFront, hBack, bind, Except.bind] at h
              split at h
              next => cases h
              next hFilled =>
                split at h
                next => cases h
                next hStray =>
                  obtain rfl := Except.ok.inj h
                  exact eq_encodeBytes_of_parts hStart hFront hBack (not_not.mp hFilled)
                    (Bool.not_eq_true _ ▸ hStray)

/-- Decoding accepts a text if and only if it is the one that encoding writes. -/
theorem decode_eq_ok_iff {text : String} {bytes : Bytes} :
    decode text = .ok bytes ↔ text = encode bytes := by
  constructor
  · intro h
    have hBytes : text.toUTF8.data.toList = encodeBytes bytes := eq_encodeBytes_of_decodeBytes_eq_ok h
    rw [← toUTF8_ofList (encodeBytes_lt bytes), ← encode] at hBytes
    exact String.toByteArray_inj.mp (ByteArray.ext (Array.toList_inj.mp hBytes))
  · rintro rfl
    exact decode_encode bytes

end Signet.Base64
