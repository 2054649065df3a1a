import Mathlib.Data.List.Basic
import Mathlib.Order.Basic
import Signet.Keystream.Run

/-! A stream cipher combines each byte of a message with the byte of the keystream at the same place,
however the message is cut into requests. So the cuts do not show in the output, and the output leads
back to the message. Requests that find no memory for their output use up nothing of the keystream. -/
namespace Signet

theorem Bytes.xor_eq_mapIdx {input key : Bytes} {keyByte : Nat → UInt8}
    (h : ∀ place < input.length, key[place]? = some (keyByte place)) :
    Bytes.xor input key = input.mapIdx fun place byte => byte ^^^ keyByte place := by
  apply List.ext_getElem?
  intro place
  rw [xor, List.getElem?_zipWith, List.getElem?_mapIdx]
  by_cases hPlace : place < input.length
  · rw [h place hPlace, List.getElem?_eq_getElem hPlace]
    rfl
  · rw [List.getElem?_eq_none (Nat.not_lt.mp hPlace)]
    rfl

namespace StreamCipher

variable (cipher : StreamCipher)

theorem blockLength_pos : 0 < cipher.blockLength := by
  cases cipher <;> exact Nat.zero_lt_succ _

theorem length_block (index : Nat) : (cipher.block index).length = cipher.blockLength := by
  cases cipher with
  | aes schedule counter => exact Aes.Block.length_toBytes _
  | xsalsa20 key nonce | chacha20 key nonce => exact Rows.length_toBytes _

/-- The number of bytes before the keystream is exhausted. -/
def capacity : Nat := cipher.blockLength * cipher.blockLimit

/-- The byte of the keystream at a position. -/
def keyByte (position : Nat) : UInt8 :=
  (cipher.block (position / cipher.blockLength)).getD (position % cipher.blockLength) 0

theorem getElem?_block (index : Nat) {place : Nat} (h : place < cipher.blockLength) :
    (cipher.block index)[place]? = some (cipher.keyByte (cipher.blockLength * index + place)) := by
  have hPlace : place < (cipher.block index).length := (cipher.length_block index).symm ▸ h
  rw [keyByte, Nat.mul_add_div cipher.blockLength_pos, Nat.div_eq_of_lt h, Nat.add_zero,
    Nat.mul_add_mod, Nat.mod_eq_of_lt h, List.getD_eq_getElem?_getD,
    List.getElem?_eq_getElem hPlace, Option.getD_some]

/-- Blocks in a row give the bytes at the positions in a row. -/
theorem getElem?_blocksFrom {count place : Nat} (index : Nat)
    (h : place < cipher.blockLength * count) :
    (cipher.blocksFrom count index)[place]? =
      some (cipher.keyByte (cipher.blockLength * index + place)) := by
  induction count generalizing index place with
  | zero => exact absurd h (Nat.not_lt_zero _)
  | succ count ih =>
      have hLength := cipher.length_block index
      rw [blocksFrom]
      by_cases hFirst : place < cipher.blockLength
      · rw [List.getElem?_append_left (hLength.symm ▸ hFirst)]
        exact cipher.getElem?_block index hFirst
      · have hPast : cipher.blockLength ≤ place := Nat.not_lt.mp hFirst
        rw [List.getElem?_append_right (hLength.symm ▸ hPast), hLength,
          ih (index + 1) (by rw [Nat.mul_succ] at h; omega), Nat.mul_succ]
        congr 2
        omega

/-- The blocks from the one with a position on give the bytes from that position on, wherever in its
block the position stands. -/
theorem getElem?_drop_blocksFrom {position place count : Nat}
    (h : position + place < cipher.blockLength * count) :
    ((cipher.blocksFrom (count - position / cipher.blockLength)
        (position / cipher.blockLength)).drop (position % cipher.blockLength))[place]? =
      some (cipher.keyByte (position + place)) := by
  have hPosition := Nat.div_add_mod position cipher.blockLength
  rw [List.getElem?_drop, cipher.getElem?_blocksFrom]
  · rw [← Nat.add_assoc, hPosition]
  · rw [Nat.mul_sub]
    omega

/-- A number of blocks reaches a position exactly if the blocks begun before it are among them. -/
theorem blocks_le_iff (stop count : Nat) :
    (stop + cipher.blockLength - 1) / cipher.blockLength ≤ count ↔
      stop ≤ cipher.blockLength * count := by
  have hSize := cipher.blockLength_pos
  rw [Nat.div_le_iff_le_mul_add_pred hSize]
  omega

end StreamCipher

namespace Keystream

variable (stream : Keystream)

/-- The input with each byte combined with the next one of the keystream. -/
def applied (input : Bytes) : Bytes :=
  input.mapIdx fun place byte => byte ^^^ stream.cipher.keyByte (stream.position + place)

/-- The keystream some bytes further on. -/
def advanced (count : Nat) : Keystream := { stream with position := stream.position + count }

theorem length_applied (input : Bytes) : (stream.applied input).length = input.length :=
  List.length_mapIdx

theorem applied_append (first second : Bytes) :
    stream.applied (first ++ second) =
      stream.applied first ++ (stream.advanced first.length).applied second := by
  simp only [applied, advanced, List.mapIdx_append, Nat.add_assoc, Nat.add_comm first.length]

/-- The same keystream takes its own effect back. -/
theorem applied_applied (input : Bytes) : stream.applied (stream.applied input) = input := by
  apply List.ext_getElem?
  intro place
  simp only [applied, List.getElem?_mapIdx, Option.map_map, Function.comp_def, UInt8.xor_assoc,
    UInt8.xor_self, UInt8.xor_zero, Option.map_id']

/-- A request is served as long as the keystream lasts. -/
theorem processInPlace_eq (buffer : Bytes) :
    stream.processInPlace buffer =
      if stream.position + buffer.length ≤ stream.cipher.capacity then
        .ok (stream.applied buffer, stream.advanced buffer.length)
      else .error (.precondition stream.cipher.algorithm .keystreamExhausted) := by
  by_cases hRoom : stream.position + buffer.length ≤ stream.cipher.capacity
  · have hBlocks := (stream.cipher.blocks_le_iff _ _).mpr hRoom
    have hReach := (stream.cipher.blocks_le_iff (stream.position + buffer.length) _).mp (Nat.le_refl _)
    have hKey := Bytes.xor_eq_mapIdx fun place (hPlace : place < buffer.length) =>
      stream.cipher.getElem?_drop_blocksFrom
        (Nat.lt_of_lt_of_le (Nat.add_lt_add_left hPlace stream.position) hReach)
    rw [processInPlace, if_neg (Nat.not_lt.mpr hBlocks), if_pos hRoom]
    exact congrArg (fun bytes => Except.ok (bytes, stream.advanced buffer.length)) hKey
  · have hBlocks := mt (stream.cipher.blocks_le_iff _ _).mp hRoom
    rw [processInPlace, if_pos (Nat.lt_of_not_le hBlocks), if_neg hRoom]

/-- The bytes that a request gives to the cipher. -/
def Request.input : Request → Bytes
  | .process input => input
  | .processInPlace buffer => buffer

/-- Each request of a run is answered with as many bytes as it gives, and the joined answers are the
output. -/
def Delivers (requests : List Request) (output : Bytes) : Prop :=
  ∃ pieces : List Bytes,
    stream.run requests = pieces.map .bytes ∧
      pieces.map List.length = requests.map (·.input.length) ∧ pieces.flatten = output

/-- Both kinds of requests are served alike while the keystream lasts. -/
theorem step_eq_of_le {request : Request}
    (h : stream.position + request.input.length ≤ stream.cipher.capacity) :
    stream.step request =
      (.bytes (stream.applied request.input), stream.advanced request.input.length) := by
  have hProcess := stream.processInPlace_eq request.input
  rw [if_pos h] at hProcess
  cases request with
  | process input | processInPlace buffer =>
      simp only [step, process, Request.input, Bool.or_true, if_true] at hProcess ⊢
      rw [hProcess]

/-- Whether the allocator gives a request the memory that it needs. -/
def Request.isReserved (request : Request) (isGranted : Bool) : Bool :=
  match request with
  | .process input => input.isEmpty || isGranted
  | .processInPlace _ => true

theorem step_of_isReserved {request : Request} {isGranted : Bool}
    (h : request.isReserved isGranted = true) :
    stream.step request isGranted = stream.step request := by
  cases request with
  | process input =>
      have hReserved : (input.isEmpty || isGranted) = true := h
      simp only [step, process, hReserved, Bool.or_true]
  | processInPlace buffer => rfl

theorem step_of_not_isReserved {request : Request} {isGranted : Bool}
    (h : request.isReserved isGranted = false) :
    stream.step request isGranted = (.refused .outOfMemory [], stream) := by
  cases request with
  | process input =>
      have hUnreserved : (input.isEmpty || isGranted) = false := h
      simp only [step, process, hUnreserved, Bool.false_eq_true, if_false]
  | processInPlace buffer => cases h

/-- Whether a request is refused for want of memory. -/
def Reply.isOutOfMemory : Reply → Bool
  | .refused .outOfMemory _ => true
  | .refused _ _ | .bytes _ => false

theorem isOutOfMemory_step (request : Request) : (stream.step request).1.isOutOfMemory = false := by
  by_cases hRoom : stream.position + request.input.length ≤ stream.cipher.capacity
  · rw [stream.step_eq_of_le hRoom]
    rfl
  · have hProcess := stream.processInPlace_eq request.input
    rw [if_neg hRoom] at hProcess
    cases request with
    | process input | processInPlace buffer =>
        simp only [step, process, Request.input, Bool.or_true, if_true] at hProcess ⊢
        rw [hProcess]
        rfl

/-- Requests that are refused for want of memory leave no trace: the other replies of a run are those of
the run without them, whatever the allocator grants. -/
theorem runGranted_of_kept (requests : List (Request × Bool)) :
    (stream.runGranted requests).filter (fun reply => !reply.isOutOfMemory) =
      stream.run ((requests.filter fun attempt => attempt.1.isReserved attempt.2).map Prod.fst) := by
  induction requests generalizing stream with
  | nil => rfl
  | cons attempt requests ih =>
      obtain ⟨request, isGranted⟩ := attempt
      rw [runGranted]
      cases hReserved : request.isReserved isGranted with
      | true =>
          have hReply := stream.isOutOfMemory_step request
          simp [stream.step_of_isReserved hReserved, hReserved, hReply, run, ih]
      | false =>
          have hReply : (Reply.refused .outOfMemory []).isOutOfMemory = true := rfl
          simp [stream.step_of_not_isReserved hReserved, hReserved, hReply, ih]

/-- A run that the keystream lasts for delivers what one request for the joined inputs would give. -/
theorem delivers_applied (requests : List Request)
    (h : stream.position + (requests.flatMap Request.input).length ≤ stream.cipher.capacity) :
    stream.Delivers requests (stream.applied (requests.flatMap Request.input)) := by
  induction requests generalizing stream with
  | nil => exact ⟨[], rfl, rfl, rfl⟩
  | cons request requests ih =>
      rw [List.flatMap_cons, List.length_append, ← Nat.add_assoc] at h
      obtain ⟨pieces, hRun, hLengths, hJoined⟩ := ih (stream.advanced request.input.length) h
      refine ⟨stream.applied request.input :: pieces, ?_, ?_, ?_⟩
      · rw [run, stream.step_eq_of_le (Nat.le_of_add_right_le h), List.map_cons, ← hRun]
      · rw [List.map_cons, List.map_cons, hLengths, length_applied]
      · rw [List.flatten_cons, hJoined, List.flatMap_cons, applied_append]

/-- No initial value stands for the one of zeros. -/
theorem start_none (kind : Kind) (key : Bytes) :
    start kind key none = start kind key (some (List.replicate kind.ivLength 0)) := by
  cases kind <;> rfl

theorem position_of_start {kind : Kind} {key : Bytes} {iv : Option Bytes} {stream : Keystream}
    (h : start kind key iv = .ok stream) : stream.position = 0 := by
  cases kind <;>
  · obtain ⟨_, -, hRest⟩ := exists_of_bind_eq_ok h
    obtain ⟨_, -, hStream⟩ := exists_of_bind_eq_ok hRest
    cases hStream
    rfl

/-- However a message is cut into requests, a fresh cipher delivers one and the same output, as long as
the message. However that output is cut, another fresh cipher delivers the message again. A cipher
without an initial value is the one with zeros. -/
theorem delivers_of_cuttings {kind : Kind} {key : Bytes} {iv : Option Bytes} {stream : Keystream}
    (hStart : start kind key iv = .ok stream) {message : Bytes}
    (hLength : message.length ≤ stream.cipher.capacity) :
    start kind key none = start kind key (some (List.replicate kind.ivLength 0)) ∧
      ∃ output : Bytes, output.length = message.length ∧
        (∀ requests : List Request, requests.flatMap Request.input = message →
          stream.Delivers requests output) ∧
        ∀ requests : List Request, requests.flatMap Request.input = output →
          stream.Delivers requests message := by
  have hRoom {count : Nat} (h : count = message.length) :
      stream.position + count ≤ stream.cipher.capacity := by
    rw [position_of_start hStart, Nat.zero_add, h]
    exact hLength
  refine ⟨start_none kind key, stream.applied message, stream.length_applied message, ?_, ?_⟩
  · rintro requests rfl
    exact stream.delivers_applied requests (hRoom rfl)
  · intro requests hJoined
    have hDelivers := stream.delivers_applied requests
      (hRoom (by rw [hJoined, length_applied]))
    rwa [hJoined, applied_applied] at hDelivers

/-- Twenty bytes, more than a block, cut inside the first one and with an empty request between. -/
theorem delivers_of_cuttings_aes :
    ∃ stream, start .aes (List.replicate 16 0) none = .ok stream ∧
      ∃ output : Bytes, output.length = 20 ∧
        stream.Delivers [.process (List.replicate 20 7)] output ∧
        stream.Delivers
          [.process (List.replicate 3 7), .process [], .processInPlace (List.replicate 17 7)] output ∧
        stream.Delivers [.process (output.take 9), .processInPlace (output.drop 9)]
          (List.replicate 20 7) := by
  have hStart : start .aes (List.replicate 16 0) none =
      .ok ⟨.aes (Aes.expand (List.replicate 16 0)) (Bytes.ofBigEndian (List.replicate 16 0)), 0⟩ := rfl
  have hLength : (List.replicate 20 (7 : UInt8)).length ≤ Nat.mul 16 (Nat.pow 2 128 - 1) := by decide
  obtain ⟨-, output, hOutputLength, hOutput, hMessage⟩ := delivers_of_cuttings hStart hLength
  refine ⟨_, hStart, output, hOutputLength, hOutput _ rfl, hOutput _ rfl, hMessage _ ?_⟩
  simp [Request.input]

end Keystream

end Signet
