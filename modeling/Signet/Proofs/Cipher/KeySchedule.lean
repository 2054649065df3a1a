import Mathlib.Data.List.Range
import Mathlib.Logic.Function.Iterate
import Signet.Cipher.Aes

/-! The key schedule of AES, word by word. The expansion works on groups as long as the key; here each
word is given by itself, as a sum of two earlier ones. The length of the key decides both how far back
these lie and how many rounds there are. -/
namespace Signet.Aes

/-- What a word of the key schedule adds to the word one key length before it, from the word right before
it. -/
def feedback (size index : Nat) (last : Column) : Column :=
  if index % size = 0 then last.rotate.substitute.add ⟨double^[index / size - 1] 1, 0, 0, 0⟩
  else if 6 < size ∧ index % size = 4 then last.substitute
  else last

/-- A word of the key schedule of a key. -/
def scheduleWord (key : List Column) (index : Nat) : Column :=
  if h : index < key.length then key[index]
  else if key.length = 0 then ⟨0, 0, 0, 0⟩
  else
    (scheduleWord key (index - key.length)).add
      (feedback key.length index (scheduleWord key (index - 1)))
termination_by index

variable {key : List Column}

theorem scheduleWord_add_length (h : 0 < key.length) (index : Nat) :
    scheduleWord key (index + key.length) =
      (scheduleWord key index).add
        (feedback key.length (index + key.length) (scheduleWord key (index + key.length - 1))) := by
  conv_lhs => rw [scheduleWord]
  rw [dif_neg (Nat.not_lt.mpr (Nat.le_add_left _ _)), if_neg h.ne', Nat.add_sub_cancel]

theorem map_scheduleWord_length (key : List Column) :
    (List.range' 0 key.length).map (scheduleWord key) = key := by
  refine List.ext_getElem (by simp) fun index _ hIndex => ?_
  rw [List.getElem_map, List.getElem_range', Nat.zero_add, Nat.one_mul, scheduleWord, dif_pos hIndex]

/-- Inside a group each word follows from the one before it. -/
theorem chain_eq (group : Nat) {count index : Nat} (hIndex : 0 < index)
    (hCount : index + count = key.length) :
    chain key.length index (scheduleWord key (key.length * group + index + key.length - 1))
        ((List.range' (key.length * group + index) count).map (scheduleWord key)) =
      (List.range' (key.length * group + index + key.length) count).map (scheduleWord key) := by
  induction count generalizing index with
  | zero => rfl
  | succ count ih =>
      have hPlace : (key.length * group + index + key.length) % key.length = index := by
        rw [Nat.add_mod_right, Nat.mul_add_mod, Nat.mod_eq_of_lt (by omega)]
      have hKey : 0 < key.length := by omega
      have hNext := scheduleWord_add_length hKey (key.length * group + index)
      rw [feedback, hPlace, if_neg hIndex.ne'] at hNext
      rw [List.range'_succ, List.range'_succ, List.map_cons, List.map_cons, chain, ← hNext]
      refine congrArg (List.cons _) ?_
      have hRest := ih (Nat.succ_pos index) (by omega)
      rw [show key.length * group + (index + 1) + key.length - 1 =
        key.length * group + index + key.length by omega] at hRest
      rw [show key.length * group + index + key.length + 1 =
        key.length * group + (index + 1) + key.length by omega]
      exact hRest

/-- The words of a group. -/
def wordGroup (key : List Column) (group : Nat) : List Column :=
  (List.range' (key.length * group) key.length).map (scheduleWord key)

theorem nextGroup_wordGroup (h : 0 < key.length) (group : Nat) :
    nextGroup (double^[group] 1) (wordGroup key group) = wordGroup key (group + 1) := by
  obtain ⟨rest, hRest⟩ := Nat.exists_eq_add_one.mpr h
  have hLast : ((List.range' (key.length * group + 1) rest).map (scheduleWord key)).getLastD
      (scheduleWord key (key.length * group)) =
        scheduleWord key (key.length * group + key.length - 1) := by
    rw [hRest]
    cases rest with
    | zero => rfl
    | succ rest =>
        rw [List.range'_concat, List.map_append, List.map_singleton, List.getLastD_concat]
        congr 1
        omega
  have hFirst := scheduleWord_add_length h (key.length * group)
  rw [feedback, if_pos (by rw [Nat.add_mod_right, Nat.mul_mod_right]), ← Nat.mul_succ,
    Nat.mul_div_cancel_left _ h, Nat.succ_sub_one] at hFirst
  have hChain := chain_eq group Nat.zero_lt_one (show 1 + rest = key.length by omega)
  have hGroup (start : Nat) : List.range' start key.length =
      start :: List.range' (start + 1) rest := by
    rw [hRest, List.range'_succ]
  rw [wordGroup, hGroup, List.map_cons, nextGroup, hLast, List.length_map, List.length_range',
    ← hRest, wordGroup, hGroup, List.map_cons, ← Nat.mul_succ, ← hFirst]
  refine congrArg (List.cons _) ?_
  rw [Nat.mul_succ]
  convert hChain using 3 <;> omega

theorem expandGroups_wordGroup (h : 0 < key.length) (count group : Nat) :
    expandGroups count (double^[group] 1) (wordGroup key group) =
      (List.range' (key.length * group) (key.length * (count + 1))).map (scheduleWord key) := by
  induction count generalizing group with
  | zero => rw [expandGroups, wordGroup, Nat.zero_add, Nat.mul_one]
  | succ count ih =>
      have hSplit : List.range' (key.length * group) (key.length * (count + 1 + 1)) =
          List.range' (key.length * group) key.length ++
            List.range' (key.length * (group + 1)) (key.length * (count + 1)) := by
        rw [Nat.mul_succ key.length group, List.range'_append_1]
        congr 1
        rw [Nat.mul_succ, Nat.add_comm]
      rw [expandGroups, nextGroup_wordGroup h, ← Function.iterate_succ_apply' double, ih, hSplit,
        List.map_append]
      rfl

/-- The four words of a block. -/
def Block.columns (block : Block) : List Column := [block.w, block.x, block.y, block.z]

/-- As many blocks as are taken hold four times as many words. -/
theorem flatMap_columns_take_blocksOfWords {count : Nat} {words : List Column}
    (h : 4 * count ≤ words.length) :
    ((blocksOfWords words).take count).length = count ∧
      ((blocksOfWords words).take count).flatMap Block.columns = words.take (4 * count) := by
  induction count generalizing words with
  | zero => exact ⟨rfl, rfl⟩
  | succ count ih =>
      match words, h with
      | w :: x :: y :: z :: rest, h =>
          have hRest : 4 * count ≤ rest.length := by
            simp only [List.length_cons] at h
            omega
          obtain ⟨hLength, hColumns⟩ := ih hRest
          rw [blocksOfWords, List.take_succ_cons, List.length_cons, hLength, List.flatMap_cons,
            hColumns]
          exact ⟨rfl, rfl⟩

theorem length_words (bytes : Bytes) : (words bytes).length = bytes.length / 4 := by
  fun_induction words bytes with
  | case1 a b c d rest ih =>
      simp only [List.length_cons, ih]
      omega
  | case2 bytes hShort =>
      match bytes with
      | [] | [_] | [_, _] | [_, _, _] => simp
      | a :: b :: c :: d :: rest => exact absurd rfl (hShort a b c d rest)

/-- The round keys of a key of 16, 24 or 32 bytes, one more than its 10, 12 or 14 rounds, are the first
words of its key schedule. -/
theorem roundKeys_expand {key : Bytes} (h : key.length ∈ [16, 24, 32]) :
    (expand key).roundKeys.length = key.length / 4 + 7 ∧
      (expand key).roundKeys.flatMap Block.columns =
        (List.range (4 * (key.length / 4 + 7))).map (scheduleWord (words key)) := by
  have hWords := length_words key
  let size := key.length / 4
  let groups := (4 * (size + 6 + 1) + size - 1) / size
  have hSizes : 0 < size ∧ 0 < groups ∧ 4 * (size + 7) ≤ size * groups := by
    simp only [List.mem_cons, List.not_mem_nil, or_false] at h
    rcases h with h | h | h <;> simp only [size, groups, h] <;> decide
  obtain ⟨hSize, hGroups, hRoom⟩ := hSizes
  have hAll : expandGroups (groups - 1) 1 (words key) =
      (List.range' 0 (size * groups)).map (scheduleWord (words key)) := by
    have hExpand := expandGroups_wordGroup (hWords ▸ hSize : 0 < (words key).length) (groups - 1) 0
    rwa [wordGroup, Nat.mul_zero, map_scheduleWord_length, Nat.sub_add_cancel hGroups, hWords]
      at hExpand
  have hLength : (expandGroups (groups - 1) 1 (words key)).length = size * groups := by
    rw [hAll, List.length_map, List.length_range']
  obtain ⟨hCount, hColumns⟩ := flatMap_columns_take_blocksOfWords (hLength ▸ hRoom)
  refine ⟨hCount, hColumns.trans ?_⟩
  rw [hAll, ← List.map_take, ← List.range_eq_range', List.take_range, Nat.min_eq_left hRoom]

end Signet.Aes
