import Signet.Proofs.EntropyPool.ScalarDraw
import Signet.Proofs.EntropyPool.Uncached

/-! The replies of a pool between two feedings are slices of one output. Each request begins at the block
after the last one that was taken, so what a request leaves of its last block is the only thing that is
lost. -/
namespace Signet.EntropyPool

/-- The first bytes of the blocks that a block runs through when it is encrypted in place. -/
def stream (schedule : Aes.Schedule) (block : Aes.Block) (length : Nat) : Bytes :=
  (ciphertext schedule (blockCount length) block).take length

section Stream

variable (schedule : Aes.Schedule) (block : Aes.Block)

theorem ciphertext_add (first second : Nat) :
    ciphertext schedule (first + second) block =
      ciphertext schedule first block ++
        ciphertext schedule second (schedule.encrypt^[first] block) := by
  induction first generalizing block with
  | zero => simp [ciphertext]
  | succ first ih =>
      rw [Nat.succ_add, ciphertext_succ, ciphertext_succ, ih, List.append_assoc,
        Function.iterate_succ_apply]

theorem le_blockCount (length : Nat) : length ≤ 16 * blockCount length := by
  rw [blockCount]
  omega

theorem blockCount_le_of_le {length count : Nat} (h : length ≤ 16 * count) :
    blockCount length ≤ count := by
  rw [blockCount]
  omega

/-- Blocks beyond the needed ones do not show in the first bytes. -/
theorem take_ciphertext {length count : Nat} (h : length ≤ 16 * count) :
    (ciphertext schedule count block).take length = stream schedule block length := by
  obtain ⟨spare, rfl⟩ := Nat.exists_eq_add_of_le (blockCount_le_of_le h)
  rw [ciphertext_add, List.take_append_of_le_length, stream]
  rw [length_ciphertext]
  exact le_blockCount length

theorem length_stream (length : Nat) : (stream schedule block length).length = length := by
  rw [stream, List.length_take, length_ciphertext]
  exact Nat.min_eq_left (le_blockCount length)

/-- What stands behind some whole blocks begins with the encryption of the last one of them. -/
theorem stream_add (count length : Nat) :
    stream schedule block (16 * count + length) =
      stream schedule block (16 * count) ++
        stream schedule (schedule.encrypt^[count] block) length := by
  have hFirst := length_ciphertext schedule count block
  have hRoom : 16 * count + length ≤ 16 * (count + blockCount length) := by
    have := le_blockCount length
    omega
  rw [← take_ciphertext schedule block hRoom, ← take_ciphertext schedule block le_rfl,
    List.take_of_length_le hFirst.le, ciphertext_add, ← hFirst, List.take_length_add_append]
  rfl

theorem take_stream {size length : Nat} (h : size ≤ length) :
    (stream schedule block length).take size = stream schedule block size := by
  rw [stream, List.take_take, Nat.min_eq_left h]
  exact take_ciphertext schedule block (h.trans (le_blockCount length))

/-- The bytes from the start of a block on, cut out of a longer output. -/
theorem take_drop_stream {count size length : Nat} (h : 16 * count + size ≤ length) :
    ((stream schedule block length).drop (16 * count)).take size =
      stream schedule (schedule.encrypt^[count] block) size := by
  obtain ⟨spare, rfl⟩ := Nat.exists_eq_add_of_le h
  rw [Nat.add_assoc, stream_add, List.drop_left' (length_stream _ _ _),
    take_stream _ _ (Nat.le_add_right size spare)]

end Stream

namespace Request

/-- Whether a request leaves the key of a pool alone. -/
def Keeps (request : Request) : Prop := ∀ input, request ≠ .incorporate input

/-- The number of bytes that a pool with entropy hands out for a request. -/
def size : Request → Nat
  | .generateVector length isGranted => if isReserved length isGranted then length else 0
  | request => request.length

/-- The reply of a pool with entropy, given the bytes that it hands out. -/
def reply (request : Request) (bytes : Bytes) : Reply :=
  match request with
  | .incorporate _ => .done
  | .askEntropy => .hasEntropy true
  | request => if request.isUnreservable then .refused .outOfMemory [] else request.answer bytes

theorem blocks_eq (request : Request) : request.blocks = blockCount request.size := by
  cases request with
  | generateVector length isGranted =>
      simp only [blocks, size]
      split_ifs <;> rfl
  | incorporate input | askEntropy => exact (Nat.div_eq_of_lt (show 0 + 15 < 16 by decide)).symm
  | generateBytes buffer | fillBytes buffer | tryFillBytes buffer | nextWord32 | nextWord64 => rfl

end Request

/-- The bytes that a reply hands out. Those of a word come with the least significant one first. -/
def Reply.handedOut : Reply → Bytes
  | .bytes filled => filled
  | .word32 word => Bytes.littleEndian 4 word.toNat
  | .word64 word => Bytes.littleEndian 8 word.toNat
  | .done | .hasEntropy _ | .refused _ _ | .aborted _ _ => []

theorem handedOut_reply {request : Request} {bytes : Bytes} (h : bytes.length = request.size) :
    (request.reply bytes).handedOut = bytes := by
  have hWord := Bytes.ofLittleEndian_lt bytes
  have hBytes := Bytes.littleEndian_ofLittleEndian bytes
  rw [h] at hWord hBytes
  cases request with
  | incorporate input | askEntropy => exact (List.eq_nil_of_length_eq_zero h).symm
  | generateVector length isGranted =>
      by_cases hReserved : isReserved length isGranted = true
      · simp [Request.reply, Request.isUnreservable, hReserved, Request.answer, Reply.handedOut]
      · rw [Request.size, if_neg hReserved] at h
        simp [Request.reply, Request.isUnreservable, hReserved, Reply.handedOut,
          List.eq_nil_of_length_eq_zero h]
  | generateBytes buffer | fillBytes buffer | tryFillBytes buffer => rfl
  | nextWord32 =>
      change Bytes.littleEndian 4 (UInt32.ofNat _).toNat = bytes
      rwa [UInt32.toNat_ofNat_of_lt' hWord]
  | nextWord64 =>
      change Bytes.littleEndian 8 (UInt64.ofNat _).toNat = bytes
      rwa [UInt64.toNat_ofNat_of_lt' hWord]

/-- The replies to a run of requests. -/
def replies (pool : EntropyPool) (requests : List Request) : List Reply :=
  (pool.run requests).map Prod.fst

/-- A number summed up over the requests of a run. -/
def total (measure : Request → Nat) (requests : List Request) : Nat :=
  requests.foldr (fun request rest => measure request + rest) 0

variable {pool : EntropyPool}

theorem served_zero (pool : EntropyPool) : pool.served 0 = pool := rfl

/-- A request that is rounded up to whole blocks takes the pool to the same place. -/
theorem served_rounded (pool : EntropyPool) (length : Nat) :
    pool.served (16 * blockCount length) = pool.served length := by
  have hBlocks : blockCount (16 * blockCount length) = blockCount length := by
    simp only [blockCount]
    omega
  have hZero : 16 * blockCount length = 0 ↔ length = 0 := by
    rw [blockCount]
    omega
  rw [served, hBlocks, served]
  simp only [hZero]

/-- A request between two feedings is answered from the current block on and moves it by the blocks that
hold the answer. -/
theorem step_eq_reply (h : pool.hasEntropy = true) {request : Request} (hKeeps : request.Keeps) :
    pool.step request =
      (request.reply (stream pool.schedule pool.block request.size), pool.served request.size) := by
  by_cases hBytes : request.IsForBytes
  · rw [step_of_hasEntropy h hBytes]
    cases request with
    | incorporate input | askEntropy => exact hBytes.elim
    | generateVector length isGranted =>
        have hReserved : isReserved length isGranted = true := hBytes
        simp only [Request.reply, Request.isUnreservable, Request.size, hReserved, Bool.not_true,
          Bool.false_eq_true, if_false, if_true]
        rfl
    | generateBytes buffer | fillBytes buffer | tryFillBytes buffer | nextWord32 | nextWord64 => rfl
  · cases request with
    | incorporate input => exact absurd rfl (hKeeps input)
    | askEntropy => rw [step, h]; rfl
    | generateVector length isGranted =>
        have hUnreserved : isReserved length isGranted = false := Bool.eq_false_iff.mpr hBytes
        simp only [step_of_unreserved pool hUnreserved, Request.reply, Request.isUnreservable,
          Request.size, hUnreserved, Bool.not_false, Bool.false_eq_true, if_true, if_false, served_zero]
    | generateBytes buffer | fillBytes buffer | tryFillBytes buffer | nextWord32 | nextWord64 =>
        exact absurd trivial hBytes

theorem length_replies (pool : EntropyPool) (requests : List Request) :
    (pool.replies requests).length = requests.length := by
  rw [replies, List.length_map, length_run]

theorem replies_append (pool : EntropyPool) (first second : List Request) :
    pool.replies (first ++ second) = pool.replies first ++ (pool.after first).replies second := by
  rw [replies, run_append, List.map_append]
  rfl

theorem after_append (pool : EntropyPool) (first second : List Request) :
    pool.after (first ++ second) = (pool.after first).after second :=
  List.foldl_append

theorem replies_cons_of_keeps (h : pool.hasEntropy = true) {request : Request}
    (hKeeps : request.Keeps) (requests : List Request) :
    pool.replies (request :: requests) =
      request.reply (stream pool.schedule pool.block request.size) ::
        (pool.served request.size).replies requests := by
  rw [replies, run, List.map_cons, step_eq_reply h hKeeps]
  rfl

theorem after_cons_of_keeps (h : pool.hasEntropy = true) {request : Request}
    (hKeeps : request.Keeps) (requests : List Request) :
    pool.after (request :: requests) = (pool.served request.size).after requests := by
  rw [after, List.foldl_cons, step_eq_reply h hKeeps]
  rfl

/-- A run without a feeding keeps the schedule and moves the block on by all the blocks that were
taken. -/
theorem after_of_keeps (h : pool.hasEntropy = true) {requests : List Request}
    (hKeeps : ∀ request ∈ requests, request.Keeps) :
    (pool.after requests).hasEntropy = true ∧ (pool.after requests).schedule = pool.schedule ∧
      (pool.after requests).block =
        pool.schedule.encrypt^[total Request.blocks requests] pool.block := by
  induction requests generalizing pool with
  | nil => exact ⟨h, rfl, rfl⟩
  | cons request requests ih =>
      obtain ⟨hFirst, hRest⟩ := List.forall_mem_cons.mp hKeeps
      have hServed : (pool.served request.size).hasEntropy = true := h
      obtain ⟨hEntropy, hSchedule, hBlock⟩ := ih hServed hRest
      rw [after_cons_of_keeps h hFirst]
      refine ⟨hEntropy, hSchedule.trans (schedule_served _ _), ?_⟩
      have hTotal : total Request.blocks (request :: requests) =
          total Request.blocks requests + blockCount request.size := by
        rw [← Request.blocks_eq, Nat.add_comm]
        rfl
      rw [hBlock, schedule_served, hTotal, Function.iterate_add_apply]
      rfl

/-- A reply in a run without a feeding is made of the slice that begins at the block after those that the
earlier requests have taken. -/
theorem getElem?_replies (h : pool.hasEntropy = true) {requests : List Request}
    (hKeeps : ∀ request ∈ requests, request.Keeps) {index : Nat} (hIndex : index < requests.length)
    {length : Nat}
    (hLength : 16 * total Request.blocks (requests.take index) + requests[index].size ≤ length) :
    (pool.replies requests)[index]? = some (requests[index].reply
      (((stream pool.schedule pool.block length).drop
        (16 * total Request.blocks (requests.take index))).take requests[index].size)) := by
  have hBefore : ∀ request ∈ requests.take index, request.Keeps :=
    fun request hMem => hKeeps request (List.mem_of_mem_take hMem)
  obtain ⟨hEntropy, hSchedule, hBlock⟩ := after_of_keeps h hBefore
  have hSplit : requests = requests.take index ++ requests[index] :: requests.drop (index + 1) := by
    rw [← List.drop_eq_getElem_cons hIndex, List.take_append_drop]
  have hPlace : (pool.replies (requests.take index)).length = index := by
    rw [length_replies, List.length_take_of_le hIndex.le]
  conv_lhs => rw [hSplit, replies_append]
  rw [List.getElem?_append_right hPlace.le, hPlace, Nat.sub_self,
    replies_cons_of_keeps hEntropy (hKeeps _ (List.getElem_mem hIndex)), List.getElem?_cons_zero,
    take_drop_stream _ _ hLength, hSchedule, hBlock]

/-- Requests for whole blocks, up to the last one, hand out in pieces what one request for all the bytes
would. -/
theorem flatMap_handedOut_replies (h : pool.hasEntropy = true) {requests : List Request}
    (hKeeps : ∀ request ∈ requests, request.Keeps)
    (hWhole : ∀ request ∈ requests.dropLast, 16 ∣ request.size) :
    (pool.replies requests).flatMap Reply.handedOut =
      stream pool.schedule pool.block (total Request.size requests) := by
  induction requests generalizing pool with
  | nil => rfl
  | cons request requests ih =>
      obtain ⟨hFirst, hRest⟩ := List.forall_mem_cons.mp hKeeps
      have hPiece := handedOut_reply (length_stream pool.schedule pool.block request.size)
      rw [replies_cons_of_keeps h hFirst, List.flatMap_cons, hPiece, total, List.foldr_cons]
      cases requests with
      | nil => exact List.append_nil _
      | cons next requests =>
          rw [List.dropLast_cons_of_ne_nil (List.cons_ne_nil _ _)] at hWhole
          obtain ⟨⟨count, hCount⟩, hLater⟩ := List.forall_mem_cons.mp hWhole
          have hBlocks : blockCount request.size = count := by
            rw [hCount, blockCount]
            omega
          have hServed : (pool.served request.size).hasEntropy = true := h
          rw [ih hServed hRest hLater, hCount, stream_add,
            ← hCount, schedule_served, served, hBlocks]
          rfl

/-- The replies before, to and behind a request of a run. -/
theorem replies_append_cons (h : pool.hasEntropy = true) {before : List Request}
    (hKeeps : ∀ request ∈ before, request.Keeps) {request : Request} (hRequest : request.Keeps)
    (later : List Request) :
    pool.replies (before ++ request :: later) =
        pool.replies before ++
          request.reply (stream pool.schedule (pool.after before).block request.size) ::
            ((pool.after before).served request.size).replies later ∧
      pool.after (before ++ request :: later) =
        ((pool.after before).served request.size).after later := by
  obtain ⟨hEntropy, hSchedule, -⟩ := after_of_keeps h hKeeps
  rw [replies_append, after_append, replies_cons_of_keeps hEntropy hRequest,
    after_cons_of_keeps hEntropy hRequest, hSchedule]
  exact ⟨rfl, rfl⟩

/-- A request for no bytes may be left out. -/
theorem replies_of_size_eq_zero (h : pool.hasEntropy = true) {before : List Request}
    (hKeeps : ∀ request ∈ before, request.Keeps) {request : Request} (hRequest : request.Keeps)
    (hSize : request.size = 0) (later : List Request) :
    (pool.replies (before ++ request :: later))[before.length]? = some (request.reply []) ∧
      (pool.replies (before ++ request :: later)).eraseIdx before.length =
        pool.replies (before ++ later) ∧
      pool.after (before ++ request :: later) = pool.after (before ++ later) := by
  obtain ⟨hReplies, hAfter⟩ := replies_append_cons h hKeeps hRequest later
  rw [hReplies, hAfter, hSize, served_zero, replies_append, after_append,
    ← pool.length_replies before, List.getElem?_append_right le_rfl,
    List.eraseIdx_append_of_length_le le_rfl, Nat.sub_self]
  exact ⟨rfl, rfl, rfl⟩

/-- A request for part of a block may be rounded up to whole blocks. It gets the first of the bytes that
it would get then, and nothing else changes. -/
theorem replies_of_rounded (h : pool.hasEntropy = true) {before : List Request}
    (hKeeps : ∀ request ∈ before, request.Keeps) {request : Request} (hRequest : request.Keeps)
    {whole : Bytes} (hWhole : whole.length = 16 * request.blocks) (later : List Request) :
    ∃ bytes : Bytes,
      (pool.replies (before ++ .generateBytes whole :: later))[before.length]? = some (.bytes bytes) ∧
        pool.replies (before ++ request :: later) =
          (pool.replies (before ++ .generateBytes whole :: later)).set before.length
            (request.reply (bytes.take request.size)) ∧
        pool.after (before ++ request :: later) =
          pool.after (before ++ .generateBytes whole :: later) := by
  have hRounded : (Request.generateBytes whole).Keeps := by
    rintro input ⟨⟩
  have hServed (pool : EntropyPool) : pool.served whole.length = pool.served request.size := by
    rw [hWhole, Request.blocks_eq, served_rounded]
  have hSize : request.size ≤ whole.length := by
    rw [hWhole, Request.blocks_eq]
    exact le_blockCount request.size
  have hPrefix := take_stream pool.schedule (pool.after before).block hSize
  obtain ⟨hReplies, hAfter⟩ := replies_append_cons h hKeeps hRequest later
  obtain ⟨hWholeReplies, hWholeAfter⟩ := replies_append_cons h hKeeps hRounded later
  refine ⟨stream pool.schedule (pool.after before).block whole.length, ?_, ?_, ?_⟩
  · rw [hWholeReplies, ← pool.length_replies before, List.getElem?_append_right le_rfl, Nat.sub_self]
    rfl
  · rw [hReplies, hWholeReplies, ← pool.length_replies before, List.set_append_right _ _ le_rfl,
      Nat.sub_self, List.set_cons_zero]
    exact congrArg (_ ++ ·) (congrArg₂ _ (congrArg _ hPrefix.symm) (by rw [← hServed]; rfl))
  · rw [hAfter, hWholeAfter]
    exact congrArg (·.after later) (hServed _).symm

/-- The requests between two feedings of a pool share out the output of one request. Each reply is made of
the slice that begins behind the blocks of the earlier requests, and the seed block ends where one
request for as many blocks leaves it. Requests for whole blocks hand out the output in pieces. Requests
for no bytes may be left out, and the rest of a block that is begun is lost to everyone. -/
theorem replies_share_one_output (h : pool.hasEntropy = true) {requests : List Request}
    (hKeeps : ∀ request ∈ requests, request.Keeps) :
    (∀ buffer : Bytes, ∃ output : Bytes,
      (pool.step (.generateBytes buffer)).1 = .bytes output ∧ output.length = buffer.length ∧
      (∀ (index : Nat) (hIndex : index < requests.length),
        let start := 16 * total Request.blocks (requests.take index)
        let size := requests[index].size
        start + size ≤ buffer.length → (pool.replies requests)[index]? =
          some (requests[index].reply ((output.drop start).take size))) ∧
      ((∀ request ∈ requests.dropLast, 16 ∣ request.size) →
        buffer.length = total Request.size requests →
        (pool.replies requests).flatMap Reply.handedOut = output) ∧
      (blockCount buffer.length = total Request.blocks requests →
        (pool.after requests).block = (pool.step (.generateBytes buffer)).2.block)) ∧
    ∀ before request later, requests = before ++ request :: later →
      (request.size = 0 →
        (pool.replies requests)[before.length]? = some (request.reply []) ∧
        (pool.replies requests).eraseIdx before.length = pool.replies (before ++ later) ∧
        pool.after requests = pool.after (before ++ later)) ∧
      ∀ whole : Bytes, whole.length = 16 * request.blocks →
        let rounded := before ++ .generateBytes whole :: later
        ∃ bytes, (pool.replies rounded)[before.length]? = some (.bytes bytes) ∧
          pool.replies requests = (pool.replies rounded).set before.length
            (request.reply (bytes.take request.size)) ∧
          pool.after requests = pool.after rounded := by
  constructor
  · intro buffer
    have hBuffer : (Request.generateBytes buffer).Keeps := by
      rintro input ⟨⟩
    refine ⟨stream pool.schedule pool.block buffer.length, ?_, length_stream _ _ _,
      fun index hIndex hLength => getElem?_replies h hKeeps hIndex hLength,
      fun hWhole hLength => ?_, fun hCount => ?_⟩
    · rw [step_eq_reply h hBuffer]
      rfl
    · rw [hLength]
      exact flatMap_handedOut_replies h hKeeps hWhole
    · rw [(after_of_keeps h hKeeps).2.2, step_eq_reply h hBuffer, ← hCount]
      rfl
  · rintro before request later rfl
    have hBefore : ∀ other ∈ before, other.Keeps :=
      fun other hMem => hKeeps other (List.mem_append_left _ hMem)
    have hRequest : request.Keeps :=
      hKeeps request (List.mem_append_right _ (List.mem_cons_self ..))
    exact ⟨fun hSize => replies_of_size_eq_zero h hBefore hRequest hSize later,
      fun whole hWhole => replies_of_rounded h hBefore hRequest hWhole later⟩

/-- A word, no bytes at all, a block and part of a block: the second block goes to the third request and
the rest of the first one to nobody. -/
theorem replies_share_one_output_ofSeed_nil :
    let pool := ofSeed []
    let word : Request := .nextWord32
    let block : Request := .fillBytes (List.replicate 16 0)
    let part : Request := .tryFillBytes (List.replicate 5 0)
    let requests := [word, .generateVector 0, block, part]
    (pool.hasEntropy = true ∧ ∀ request ∈ requests, request.Keeps) ∧
      ∃ output : Bytes, (pool.step (.generateBytes (List.replicate 37 0))).1 = .bytes output ∧
        (pool.replies requests)[0]? = some (word.reply (output.take 4)) ∧
        (pool.replies requests)[2]? = some (block.reply ((output.drop 16).take 16)) ∧
        (pool.replies requests)[3]? = some (part.reply ((output.drop 32).take 5)) ∧
        pool.after requests = pool.after [word, block, part] := by
  intro pool word block part requests
  have hEntropy : pool.hasEntropy = true := rfl
  have hKeeps : ∀ request ∈ requests, request.Keeps := by
    simp [requests, word, block, part, Request.Keeps]
  obtain ⟨hOutput, hParts⟩ := replies_share_one_output hEntropy hKeeps
  obtain ⟨output, hStep, -, hSlices, -, -⟩ := hOutput (List.replicate 37 0)
  have hBlock := hSlices 2 (by decide) (by decide)
  have hPart := hSlices 3 (by decide) (by decide)
  rw [show 16 * total Request.blocks (requests.take 2) = 16 by decide] at hBlock
  rw [show 16 * total Request.blocks (requests.take 3) = 32 by decide] at hPart
  have hEmpty := (hParts [word] (.generateVector 0) [block, part] rfl).1 rfl
  exact ⟨⟨hEntropy, hKeeps⟩, output, hStep, hSlices 0 (by decide) (by decide),
    hBlock, hPart, hEmpty.2.2⟩

end Signet.EntropyPool
