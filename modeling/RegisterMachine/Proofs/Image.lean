import RegisterMachine.Core.Image
import RegisterMachine.Proofs.Layout

/-!
# Images: reading is the inverse of writing

A reader `Inverts` a writer of so many bytes if it reads back what was written, if what it reads
is written as the bytes it was read from, and if too few bytes are all that stops it. Readers
that invert writers can be put one after another (`Inverts.andThen`), and the reader of an image
is five readers of segments in a row.

* `readNumbers_eq`, `writeNumbers_eq`: numbers of one size.
* `readCells_inverts`: one segment; `readImage_inverts`: all memory.
* `image_round_trip`: what this says of a core.
-/

namespace RegisterMachine

namespace Image

/-! ## Numbers -/

theorem ofLittleEndian_lt (bytes : List UInt8) : ofLittleEndian bytes < 256 ^ bytes.length := by
  induction bytes with
  | nil => simp [ofLittleEndian]
  | cons byte rest ih =>
    have h : byte.toNat < 256 := byte.toNat_lt
    rw [ofLittleEndian, List.length_cons, pow_succ]
    omega

theorem ofLittleEndian_littleEndian {count number : ℕ} (h : number < 256 ^ count) :
    ofLittleEndian (littleEndian count number) = number := by
  induction count generalizing number with
  | zero => simpa [littleEndian, ofLittleEndian, eq_comm] using h
  | succ count ih =>
    rw [littleEndian, ofLittleEndian, ih (by rw [pow_succ] at h; omega), UInt8.toNat_ofNat']
    omega

theorem fits_of_lt {count number : ℕ} (hc : isCellSize count) (h : number < 256 ^ count) :
    fits count number := by
  simp [fits, hc, ofLittleEndian_littleEndian h]

/-- The bytes of numbers of one size. -/
def bytesOf (count : ℕ) (numbers : List ℕ) : List UInt8 :=
  numbers.flatMap (littleEndian count)

/-- The first `n` numbers of a byte list. -/
def numbersOf (count : ℕ) : ℕ → List UInt8 → List ℕ
  | 0, _ => []
  | n + 1, bytes => ofLittleEndian (bytes.take count) :: numbersOf count n (bytes.drop count)

@[simp] theorem length_numbersOf (count n : ℕ) (bytes : List UInt8) :
    (numbersOf count n bytes).length = n := by
  induction n generalizing bytes with
  | zero => rfl
  | succ n ih => simp [numbersOf, ih]

theorem lt_of_mem_numbersOf {count n number : ℕ} {bytes : List UInt8}
    (h : number ∈ numbersOf count n bytes) : number < 256 ^ count := by
  induction n generalizing bytes with
  | zero => simp [numbersOf] at h
  | succ n ih =>
    rcases List.mem_cons.1 h with rfl | h
    · exact (ofLittleEndian_lt _).trans_le
        (Nat.pow_le_pow_right (by omega) (List.length_take_le _ _))
    · exact ih h

theorem length_bytesOf (count : ℕ) (numbers : List ℕ) :
    (bytesOf count numbers).length = numbers.length * count := by
  simp [bytesOf, List.length_flatMap]

theorem bytesOf_numbersOf {count n : ℕ} {bytes : List UInt8} (h : n * count ≤ bytes.length) :
    bytesOf count (numbersOf count n bytes) = bytes.take (n * count) := by
  induction n generalizing bytes with
  | zero => simp [bytesOf, numbersOf]
  | succ n ih =>
    rw [Nat.succ_mul] at h
    have hhead : (bytes.take count).length = count := by simp; omega
    have htail : n * count ≤ (bytes.drop count).length := by simp; omega
    have hback := littleEndian_ofLittleEndian (bytes.take count)
    rw [hhead] at hback
    change littleEndian count (ofLittleEndian (bytes.take count)) ++
      bytesOf count (numbersOf count n (bytes.drop count)) = _
    rw [hback, ih htail, Nat.succ_mul, Nat.add_comm, List.take_add]

theorem numbersOf_bytesOf {count : ℕ} {numbers : List ℕ} (h : ∀ n ∈ numbers, n < 256 ^ count)
    (rest : List UInt8) :
    numbersOf count numbers.length (bytesOf count numbers ++ rest) = numbers := by
  induction numbers with
  | nil => rfl
  | cons n numbers ih =>
    have hsplit : bytesOf count (n :: numbers) ++ rest =
        littleEndian count n ++ (bytesOf count numbers ++ rest) := by
      simp [bytesOf]
    have hn := ofLittleEndian_littleEndian (h n List.mem_cons_self)
    rw [List.length_cons, numbersOf, hsplit, List.take_left' (length_littleEndian _ _),
      List.drop_left' (length_littleEndian _ _), hn,
      ih fun m hm => h m (List.mem_cons_of_mem _ hm)]

theorem writeNumbers_eq {cells : List (ℕ × ℕ)} (h : ∀ cell ∈ cells, fits cell.1 cell.2)
    (sink : Sink) (hs : sink.limit = none) :
    writeNumbers sink cells = .ok { sink with
      bytes := sink.bytes ++ cells.flatMap fun cell => littleEndian cell.1 cell.2 } := by
  induction cells generalizing sink with
  | nil => simp [writeNumbers]
  | cons cell cells ih =>
    have happend : sink.append? (littleEndian cell.1 cell.2) =
        some { sink with bytes := sink.bytes ++ littleEndian cell.1 cell.2 } := by
      simp [Sink.append?, hs]
    rw [writeNumbers, if_pos (h _ List.mem_cons_self), happend]
    refine (ih (fun c hc => h c (List.mem_cons_of_mem _ hc))
      { sink with bytes := sink.bytes ++ littleEndian cell.1 cell.2 } hs).trans ?_
    simp [← Array.toList_inj]

theorem readNumbers_eq {count : ℕ} (hc : isCellSize count) (n : ℕ) (numbers : Array ℕ)
    (bytes : List UInt8) :
    readNumbers count n numbers bytes =
      if n * count ≤ bytes.length then
        .ok (numbers ++ numbersOf count n bytes, bytes.drop (n * count))
      else .error .shortRead := by
  induction n generalizing numbers bytes with
  | zero => simp [readNumbers, numbersOf]
  | succ n ih =>
    rw [readNumbers]
    simp only [List.splitAt_eq, hc, Bool.not_true, Bool.false_eq_true, if_false, ih,
      List.length_take, List.length_drop, List.drop_drop, Nat.succ_mul]
    split_ifs with h₁ h₂ h₃ h₄ <;> try omega
    · rfl
    · simp [numbersOf, Nat.add_comm]
    · rfl

/-! ## Readers that invert writers -/

/-- A reader takes bytes from the start of a list, and answers those it left as well. -/
abbrev Reader (α : Type) := List UInt8 → Except Fault (α × List UInt8)

/-- `read` takes the `size` bytes that `write` gives for a value that is `good`, and only a list
    with fewer bytes stops it. -/
structure Inverts {α : Type} (read : Reader α) (write : α → List UInt8) (size : ℕ)
    (good : α → Prop) : Prop where
  short : ∀ bytes, bytes.length < size → read bytes = .error .shortRead
  enough : ∀ bytes, size ≤ bytes.length →
    ∃ a, good a ∧ write a = bytes.take size ∧ read bytes = .ok (a, bytes.drop size)
  length_write : ∀ a, good a → (write a).length = size
  read_write : ∀ a rest, good a → read (write a ++ rest) = .ok (a, rest)

/-- One reader after another. -/
def Reader.andThen {α β : Type} (r : Reader α) (q : Reader β) : Reader (α × β) := fun bytes => do
  let (a, bytes) ← r bytes
  let (b, bytes) ← q bytes
  return ((a, b), bytes)

theorem Inverts.andThen {α β : Type} {r : Reader α} {w : α → List UInt8} {m : ℕ} {g : α → Prop}
    {q : Reader β} {v : β → List UInt8} {n : ℕ} {h : β → Prop} (hr : Inverts r w m g)
    (hq : Inverts q v n h) :
    Inverts (r.andThen q) (fun p => w p.1 ++ v p.2) (m + n) fun p => g p.1 ∧ h p.2 where
  short bytes hlt := by
    unfold Reader.andThen
    by_cases hm : bytes.length < m
    · rw [hr.short _ hm]; rfl
    · obtain ⟨a, -, -, ha⟩ := hr.enough _ (not_lt.1 hm)
      have hn : (bytes.drop m).length < n := by simp; omega
      simp only [ha, bind, Except.bind]
      rw [hq.short _ hn]
  enough bytes hle := by
    obtain ⟨a, hga, hwa, ha⟩ := hr.enough bytes (by omega)
    obtain ⟨b, hhb, hvb, hb⟩ := hq.enough (bytes.drop m) (by simp; omega)
    refine ⟨(a, b), ⟨hga, hhb⟩, ?_, ?_⟩
    · simp only [hwa, hvb, List.take_add]
    · simp [Reader.andThen, ha, hb, bind, Except.bind, pure, Except.pure, List.drop_drop]
  length_write p hp := by simp [hr.length_write _ hp.1, hq.length_write _ hp.2]
  read_write p rest hp := by
    simp [Reader.andThen, List.append_assoc, hr.read_write _ _ hp.1, hq.read_write _ _ hp.2, bind,
      Except.bind, pure, Except.pure]

theorem Inverts.congr {α : Type} {r : Reader α} {w : α → List UInt8} {m n : ℕ} {g h : α → Prop}
    (hr : Inverts r w m g) (hmn : m = n) (hgh : ∀ a, g a ↔ h a) : Inverts r w n h := by
  subst hmn
  exact funext (fun a => propext (hgh a)) ▸ hr

/-- **Reading a segment.** A cell is read from `count` bytes by `ofNat` and written by `toNat`;
    the cells that are `good` are those that fit. -/
theorem readCells_inverts {α : Type} {count : ℕ} (hc : isCellSize count) (region : Region)
    (capacity : ℕ) (toNat : α → ℕ) (ofNat : ℕ → α) (good : α → Prop)
    (hto : ∀ a, good a → toNat a < 256 ^ count) (hof : ∀ a, ofNat (toNat a) = a)
    (hback : ∀ n < 256 ^ count, toNat (ofNat n) = n ∧ good (ofNat n)) :
    Inverts
      (fun bytes => do
        let (numbers, rest) ← readNumbers count capacity #[] bytes
        return ((⟨region, numbers.map ofNat⟩ : Segment α), rest))
      (fun segment => bytesOf count (segment.cells.toList.map toNat)) (capacity * count)
      fun segment => segment.Spans region capacity ∧ ∀ a ∈ segment.cells.toList, good a where
  short bytes hlt := by simp [readNumbers_eq hc, not_le.2 hlt, bind, Except.bind]
  enough bytes hle := by
    refine ⟨⟨region, (numbersOf count capacity bytes).toArray.map ofNat⟩,
      ⟨⟨rfl, by simp [Segment.capacity]⟩, ?_⟩, ?_, ?_⟩
    · intro a ha
      simp only [List.map_toArray, List.mem_map] at ha
      obtain ⟨n, hn, rfl⟩ := ha
      exact (hback n (lt_of_mem_numbersOf hn)).2
    · rw [← bytesOf_numbersOf hle]
      congr 1
      simp only [List.map_toArray, List.map_map]
      exact (List.map_congr_left fun n hn => (hback n (lt_of_mem_numbersOf hn)).1).trans
        (List.map_id _)
    · simp [readNumbers_eq hc, hle, bind, Except.bind, pure, Except.pure]
  length_write segment h := by
    rw [length_bytesOf, List.length_map, Array.length_toList]
    exact congrArg (· * count) h.1.capacity_eq
  read_write segment rest h := by
    obtain ⟨⟨rfl, hcap⟩, hgood⟩ := h
    have hlen : (segment.cells.toList.map toNat).length = capacity := by
      simpa [Segment.capacity] using hcap
    have hlt : ∀ n ∈ segment.cells.toList.map toNat, n < 256 ^ count := by
      intro n hn
      obtain ⟨a, ha, rfl⟩ := List.mem_map.1 hn
      exact hto a (hgood a ha)
    have hnumbers := numbersOf_bytesOf hlt rest
    have hsize : (bytesOf count (segment.cells.toList.map toNat)).length = capacity * count := by
      rw [length_bytesOf, hlen]
    rw [hlen] at hnumbers
    simp [readNumbers_eq hc, hnumbers, hsize, bind, Except.bind, pure, Except.pure,
      Function.comp_def, hof]

/-! ## Segments -/

theorem readCode_inverts (profile : Profile) :
    Inverts (readCode profile) (fun code => bytesOf 4 (code.cells.toList.map UInt32.toNat))
      (profile.codeCapacity * 4) fun code => code.Spans .code profile.codeCapacity := by
  have hc : isCellSize 4 := rfl
  exact (readCells_inverts hc .code profile.codeCapacity UInt32.toNat UInt32.ofNat
    (fun _ => True) (fun a _ => a.toNat_lt) (fun a => UInt32.ofNat_toNat)
    (fun n hn => ⟨UInt32.toNat_ofNat_of_lt' hn, trivial⟩)).congr rfl fun code => by simp

end Image

/-- Words take a whole number of bytes, at most eight. -/
structure Profile.HasWholeBytes (profile : Profile) : Prop where
  dvd : 8 ∣ profile.wordBits
  pos : 8 ≤ profile.wordBits
  le : profile.wordBits ≤ 64

namespace Profile.HasWholeBytes
variable {profile : Profile} (hw : profile.HasWholeBytes)
include hw

theorem isCellSize : Image.isCellSize profile.wordBytes := by
  obtain ⟨⟨k, hk⟩, hpos, hle⟩ := hw
  simp only [Image.isCellSize, Bool.and_eq_true, decide_eq_true_eq]
  unfold wordBytes
  omega

theorem pow_wordBytes : 256 ^ profile.wordBytes = profile.wordMask.toNat + 1 := by
  obtain ⟨⟨k, hk⟩, hpos, hle⟩ := hw
  have hbytes : profile.wordBytes = k := by rw [wordBytes, hk]; omega
  have h256 : (256 : ℕ) = 2 ^ 8 := rfl
  rw [hbytes, wordMask, toNat_wordMask, Nat.min_eq_left hle, hk, h256, ← pow_mul,
    Nat.sub_add_cancel (Nat.two_pow_pos _)]

end Profile.HasWholeBytes

namespace Image
variable {profile : Profile}

/-- The bytes of a segment of words. -/
def wordBytesOf (profile : Profile) (segment : Segment Word) : List UInt8 :=
  bytesOf profile.wordBytes (segment.cells.toList.map UInt64.toNat)

theorem readWords_inverts (hw : profile.HasWholeBytes) (region : Region) :
    Inverts (readWords profile region) (wordBytesOf profile)
      (profile.capacity region * profile.wordBytes) fun segment =>
        segment.Spans region (profile.capacity region) ∧ segment.Bounded profile.wordMask := by
  refine readCells_inverts hw.isCellSize region (profile.capacity region) UInt64.toNat
    UInt64.ofNat (· ≤ profile.wordMask) (fun a ha => ?_) (fun a => UInt64.ofNat_toNat) fun n hn => ?_
  · rw [hw.pow_wordBytes]
    exact Nat.lt_succ_of_le (UInt64.le_iff_toNat_le.1 ha)
  · rw [hw.pow_wordBytes] at hn
    have hsize : n < UInt64.size := hn.trans_le profile.wordMask.toNat_lt
    have hback := UInt64.toNat_ofNat_of_lt' hsize
    exact ⟨hback, by rw [UInt64.le_iff_toNat_le, hback]; omega⟩

/-! ## All memory -/

/-- The bytes of an image. -/
def bytes (profile : Profile) (memory : Memory) : List UInt8 :=
  bytesOf 4 (memory.code.cells.toList.map UInt32.toNat) ++
    (wordBytesOf profile memory.data ++ (wordBytesOf profile memory.microcode ++
      (wordBytesOf profile memory.stack ++ wordBytesOf profile memory.callStack)))

/-- The segments of memory in the order of an image. -/
abbrev Segments := Segment UInt32 × Segment Word × Segment Word × Segment Word × Segment Word

/-- The memory made of the segments of an image. -/
def assemble (segments : Segments) : Memory where
  code := segments.1
  data := segments.2.1
  microcode := segments.2.2.1
  stack := segments.2.2.2.1
  callStack := segments.2.2.2.2

/-- Reads one segment after another. -/
def readSegments (profile : Profile) : Reader Segments :=
  Reader.andThen (readCode profile) <| Reader.andThen (readWords profile .data) <|
    Reader.andThen (readWords profile .microcode) <|
      Reader.andThen (readWords profile .stack) (readWords profile .callStack)

theorem readImage_eq (profile : Profile) (image : List UInt8) :
    Memory.readImage profile image =
      (readSegments profile image).map fun answer => assemble answer.1 := by
  simp only [Memory.readImage, readSegments, Reader.andThen, bind, Except.bind, pure, Except.pure]
  rcases readCode profile image with _ | ⟨_, _⟩ <;> simp only [Except.map]
  rcases readWords profile .data _ with _ | ⟨_, _⟩ <;> simp only []
  rcases readWords profile .microcode _ with _ | ⟨_, _⟩ <;> simp only []
  rcases readWords profile .stack _ with _ | ⟨_, _⟩ <;> simp only []
  rcases readWords profile .callStack _ with _ | ⟨_, _⟩ <;> simp only [assemble]

theorem readSegments_inverts (hw : profile.HasWholeBytes) :
    Inverts (readSegments profile) (fun segments => bytes profile (assemble segments))
      profile.imageSize fun segments =>
        (assemble segments).LaidOut profile ∧ (assemble segments).Bounded profile.wordMask := by
  have hsegments := (readCode_inverts profile).andThen <|
    (readWords_inverts hw .data).andThen <| (readWords_inverts hw .microcode).andThen <|
      (readWords_inverts hw .stack).andThen (readWords_inverts hw .callStack)
  refine hsegments.congr ?_ fun s => ⟨fun ⟨c, d, m, t, r⟩ => ?_, fun ⟨l, b⟩ => ?_⟩
  · simp only [Profile.imageSize, Profile.capacity]
    ring
  · exact ⟨⟨c, d.1, t.1, r.1, m.1⟩, ⟨d.2, t.2, r.2, m.2⟩⟩
  · exact ⟨l.code, ⟨l.data, b.data⟩, ⟨l.microcode, b.microcode⟩, ⟨l.stack, b.stack⟩,
      ⟨l.callStack, b.callStack⟩⟩

theorem readImage_short (hw : profile.HasWholeBytes) {image : List UInt8}
    (h : image.length < profile.imageSize) :
    Memory.readImage profile image = .error .shortRead := by
  rw [readImage_eq, (readSegments_inverts hw).short _ h]
  rfl

theorem readImage_enough (hw : profile.HasWholeBytes) {image : List UInt8}
    (h : profile.imageSize ≤ image.length) :
    ∃ memory : Memory, memory.LaidOut profile ∧ memory.Bounded profile.wordMask ∧
      bytes profile memory = image.take profile.imageSize ∧
      Memory.readImage profile image = .ok memory := by
  obtain ⟨segments, ⟨hl, hb⟩, hwrite, hread⟩ := (readSegments_inverts hw).enough _ h
  exact ⟨assemble segments, hl, hb, hwrite, by rw [readImage_eq, hread]; rfl⟩

theorem readImage_bytes (hw : profile.HasWholeBytes) {memory : Memory} (hl : memory.LaidOut profile)
    (hb : memory.Bounded profile.wordMask) :
    Memory.readImage profile (bytes profile memory) = .ok memory := by
  have h := (readSegments_inverts hw).read_write
    (memory.code, memory.data, memory.microcode, memory.stack, memory.callStack) [] ⟨hl, hb⟩
  rw [List.append_nil] at h
  rw [readImage_eq]
  exact congrArg (Except.map fun answer => assemble answer.1) h

theorem length_bytes (hw : profile.HasWholeBytes) {memory : Memory} (hl : memory.LaidOut profile)
    (hb : memory.Bounded profile.wordMask) : (bytes profile memory).length = profile.imageSize :=
  (readSegments_inverts hw).length_write
    (memory.code, memory.data, memory.microcode, memory.stack, memory.callStack) ⟨hl, hb⟩

theorem writeImage_eq (hw : profile.HasWholeBytes) {memory : Memory}
    (hb : memory.Bounded profile.wordMask) {sink : Sink} (hs : sink.limit = none) :
    memory.writeImage profile sink =
      .ok { sink with bytes := sink.bytes ++ bytes profile memory } := by
  have hword : ∀ segment : Segment Word, segment.Bounded profile.wordMask →
      ∀ word ∈ segment.cells.toList, fits profile.wordBytes word.toNat := by
    intro segment hbounded word hmem
    refine fits_of_lt hw.isCellSize ?_
    rw [hw.pow_wordBytes]
    exact Nat.lt_succ_of_le (UInt64.le_iff_toNat_le.1 (hbounded word hmem))
  have hcode : ∀ word : UInt32, fits 4 word.toNat := fun word => fits_of_lt rfl word.toNat_lt
  rw [Memory.writeImage, writeNumbers_eq _ _ hs]
  · simp [Memory.imageCells, bytes, wordBytesOf, bytesOf, List.flatMap_map]
  · intro cell hcell
    simp only [Memory.imageCells, List.append_assoc, List.mem_append, List.mem_map] at hcell
    rcases hcell with ⟨w, -, rfl⟩ | ⟨w, h, rfl⟩ | ⟨w, h, rfl⟩ | ⟨w, h, rfl⟩ | ⟨w, h, rfl⟩
    · exact hcode w
    · exact hword _ hb.data w h
    · exact hword _ hb.microcode w h
    · exact hword _ hb.stack w h
    · exact hword _ hb.callStack w h

/-! ## Words that are read -/

theorem isCellSize_wordBytes (hpos : 8 ≤ profile.wordBits) (hle : profile.wordBits ≤ 64) :
    isCellSize profile.wordBytes := by
  simp only [isCellSize, Bool.and_eq_true, decide_eq_true_eq]
  unfold Profile.wordBytes
  omega

theorem pow_wordBytes_le (hle : profile.wordBits ≤ 64) :
    256 ^ profile.wordBytes ≤ profile.wordMask.toNat + 1 := by
  have h256 : (256 : ℕ) = 2 ^ 8 := rfl
  rw [Profile.wordMask, toNat_wordMask, Nat.min_eq_left hle, Nat.sub_add_cancel Nat.one_le_two_pow,
    h256, ← pow_mul]
  exact Nat.pow_le_pow_right (by omega) (Nat.mul_div_le profile.wordBits 8)

/-- Whatever `read` answers is `good`. -/
def Yields {α : Type} (read : Reader α) (good : α → Prop) : Prop :=
  ∀ bytes a rest, read bytes = .ok (a, rest) → good a

theorem Yields.andThen {α β : Type} {r : Reader α} {q : Reader β} {g : α → Prop} {h : β → Prop}
    (hr : Yields r g) (hq : Yields q h) : Yields (r.andThen q) fun ab => g ab.1 ∧ h ab.2 := by
  intro bytes ab rest hread
  simp only [Reader.andThen, bind, Except.bind, pure, Except.pure] at hread
  cases ha : r bytes with
  | error fault =>
    rw [ha] at hread
    cases hread
  | ok answer =>
    rw [ha] at hread
    cases hb : q answer.2 with
    | error fault => simp [hb] at hread
    | ok answer' =>
      simp only [hb] at hread
      cases hread
      exact ⟨hr _ _ _ ha, hq _ _ _ hb⟩

/-- Words that are read of an image keep within the word width, also where a word is no whole
number of bytes. -/
theorem readWords_yields (hc : isCellSize profile.wordBytes) (hle : profile.wordBits ≤ 64)
    (region : Region) : Yields (readWords profile region) (·.Bounded profile.wordMask) := by
  intro bytes segment rest h
  rw [readWords, readNumbers_eq hc] at h
  split_ifs at h
  · cases h
    intro word hw
    obtain ⟨number, hn, rfl⟩ : ∃ number ∈ numbersOf profile.wordBytes (profile.capacity region) bytes,
        UInt64.ofNat number = word := by simpa using hw
    have hlt := (lt_of_mem_numbersOf hn).trans_le (pow_wordBytes_le hle)
    rw [UInt64.le_iff_toNat_le, UInt64.toNat_ofNat_of_lt' (hlt.trans_le profile.wordMask.toNat_lt)]
    exact Nat.le_of_lt_succ hlt
  · cases h

theorem bounded_of_readImage (hc : isCellSize profile.wordBytes) (hle : profile.wordBits ≤ 64)
    {image : List UInt8} {memory : Memory} (h : Memory.readImage profile image = .ok memory) :
    memory.Bounded profile.wordMask := by
  have hcode : Yields (readCode profile) fun _ => True := fun _ _ _ _ => trivial
  have hwords := readWords_yields hc hle
  have hall := hcode.andThen <| (hwords .data).andThen <| (hwords .microcode).andThen <|
    (hwords .stack).andThen (hwords .callStack)
  rw [readImage_eq] at h
  cases hread : readSegments profile image with
  | error fault =>
    rw [hread] at h
    cases h
  | ok answer =>
    rw [hread] at h
    cases h
    obtain ⟨-, hdata, hmicrocode, hstack, hcallStack⟩ := hall _ _ _ hread
    exact ⟨hdata, hstack, hcallStack, hmicrocode⟩

end Image

/-! ## Images of a core -/

namespace Core
variable {δ ε : Type} {profile : Profile}

theorem result_loadImage (image : List UInt8) (core : Core δ) (log : Log) :
    (loadImage image).result core log =
      (Memory.readImage core.profile image).map fun _ => () := by
  simp only [Exec.result, loadImage, Exec.run_bind, Exec.run_get, Exec.run_lift]
  rcases Memory.readImage core.profile image with _ | _ <;> rfl

theorem final_loadImage (image : List UInt8) (core : Core δ) (log : Log) :
    (loadImage image).final core log =
      match Memory.readImage core.profile image with
      | .ok memory => { core with memory }
      | .error _ => core := by
  simp only [Exec.final, loadImage, Exec.run_bind, Exec.run_get, Exec.run_lift]
  rcases Memory.readImage core.profile image with _ | _ <;> rfl

/-- **Images are exact.** A byte list can be loaded iff it is long enough, and what was loaded is
    dumped as the bytes it was loaded from; a list that is too short changes nothing. Words that
    fit are dumped as an image of the profile's size, which gives any core the same memory. -/
theorem image_round_trip (hw : profile.HasWholeBytes) :
    (∀ (core : Core δ) (log : Log) (image : List UInt8), core.profile = profile →
      ((loadImage image).result core log = .ok () ↔ profile.imageSize ≤ image.length) ∧
      ((loadImage image).result core log ≠ .ok () → (loadImage image).final core log = core) ∧
      ((loadImage image).result core log = .ok () → ∀ sink : Sink, sink.limit = none →
        ((loadImage image).final core log).dumpImage sink =
          .ok { sink with bytes := sink.bytes ++ image.take profile.imageSize })) ∧
    (∀ core : Core δ, core.profile = profile → core.memory.LaidOut profile →
      core.memory.Bounded profile.wordMask → ∃ image : List UInt8,
        image.length = profile.imageSize ∧
        (∀ sink : Sink, sink.limit = none →
          core.dumpImage sink = .ok { sink with bytes := sink.bytes ++ image }) ∧
        ∀ (target : Core ε) (log : Log), target.profile = profile →
          (loadImage image).result target log = .ok () ∧
            ((loadImage image).final target log).memory = core.memory) := by
  constructor
  · rintro core log image rfl
    rw [result_loadImage, final_loadImage]
    rcases lt_or_ge image.length core.profile.imageSize with hlt | hle
    · rw [Image.readImage_short hw hlt]
      simp [Except.map, hlt]
    · obtain ⟨memory, -, hb, hbytes, hread⟩ := Image.readImage_enough hw hle
      rw [hread]
      refine ⟨iff_of_true rfl hle, fun h => absurd rfl h, fun _ sink hs => ?_⟩
      rw [← hbytes]
      exact Image.writeImage_eq hw hb hs
  · rintro core rfl hl hb
    refine ⟨Image.bytes core.profile core.memory, Image.length_bytes hw hl hb,
      fun sink hs => Image.writeImage_eq hw hb hs, fun target log ht => ?_⟩
    rw [result_loadImage, final_loadImage, ht, Image.readImage_bytes hw hl hb]
    exact ⟨rfl, rfl⟩

theorem image_round_trip_small :
    let core : Core Empty := .powerOn .small .empty default
    let log : Log := .ofLevel none
    let image : List UInt8 := List.replicate 40 7
    let sink : Sink := default
    Profile.small.HasWholeBytes ∧
      (loadImage image).result core log = .ok () ∧
      ((loadImage image).final core log).dumpImage sink =
        .ok { sink with bytes := sink.bytes ++ image.take 36 } ∧
      (loadImage [1, 2, 3]).final core log = core ∧
      ∃ dumped : List UInt8, dumped.length = 36 ∧
        core.dumpImage sink = .ok { sink with bytes := sink.bytes ++ dumped } ∧
        ((loadImage dumped).final core log).memory = core.memory := by
  intro core log image sink
  have hw : Profile.small.HasWholeBytes := ⟨by decide, by decide, by decide⟩
  obtain ⟨hload, hdump⟩ := @image_round_trip Empty Empty .small hw
  have hok := (hload core log image rfl).1.2 (by decide)
  have hshort : (loadImage [1, 2, 3]).result core log ≠ .ok () :=
    mt (hload core log [1, 2, 3] rfl).1.1 (by decide)
  obtain ⟨dumped, hlength, hsink, hback⟩ :=
    hdump core rfl (Memory.laidOut_zeroed _) (Memory.bounded_zeroed _ _)
  exact ⟨hw, hok, (hload core log image rfl).2.2 hok sink rfl,
    (hload core log [1, 2, 3] rfl).2.1 hshort, dumped, hlength, hsink sink rfl,
    (hback core log rfl).2⟩

end Core

end RegisterMachine
