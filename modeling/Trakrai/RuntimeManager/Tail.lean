import Trakrai.Lib.Split

namespace Trakrai.RuntimeManager
open List Lib

def lineFeed : UInt8 := 10

def carriageReturn : UInt8 := 13

def tailReadChunkSize : Nat := 16 * 1024

inductive TailSource where
  | unreadable (error : String)
  | directory
  | file (content : List UInt8)

/-- `strings.TrimRight`, with a set of ASCII characters. -/
def trimRight (cutset : List UInt8) (bytes : List UInt8) : List UInt8 := bytes.rdropWhile (cutset.contains ·)

theorem tailReadChunkSize_pos : 0 < tailReadChunkSize := by decide

def chunkSize (offset : Nat) : Nat := if offset < tailReadChunkSize then offset else tailReadChunkSize

theorem chunkSize_pos (h : 0 < offset) : 0 < chunkSize offset := by
  rw [chunkSize]
  split
  · exact h
  · exact tailReadChunkSize_pos

/-- The loop that reads chunks from the end of the file, until there are enough line feeds. -/
def readChunks (content : List UInt8) (maxLines offset : Nat) (buffer : List UInt8) : List UInt8 :=
  if 0 < offset ∧ buffer.count lineFeed ≤ maxLines then
    let start := offset - chunkSize offset
    readChunks content maxLines start ((content.drop start).take (chunkSize offset) ++ buffer)
  else buffer
termination_by offset
decreasing_by
  rename_i h
  exact Nat.sub_lt h.1 (chunkSize_pos h.1)

/-- What `readTailLines` makes of the bytes that it has read. -/
def tailLines (maxLines : Nat) (buffer : List UInt8) : List (List UInt8) × Bool :=
  let trimmed := trimRight [carriageReturn, lineFeed] buffer
  if trimmed = [] then ([], false)
  else
    let lines := trimmed.splitOn lineFeed
    let truncated : Bool := maxLines < lines.length
    let lines := if truncated then lines.drop (lines.length - maxLines) else lines
    (lines.map (trimRight [carriageReturn]), truncated)

def effectiveMaxLines (maxLines : Int) : Nat := if maxLines ≤ 0 then 80 else maxLines.toNat

def readTailLines (path : String) (maxLines : Int) : TailSource → Except String (List (List UInt8) × Bool)
  | .unreadable error => .error error
  | .directory => .error (path ++ " is a directory")
  | .file content =>
    if content.length = 0 then .ok ([], false)
    else .ok (tailLines (effectiveMaxLines maxLines)
      (readChunks content (effectiveMaxLines maxLines) content.length []))

def textLines (text : List UInt8) : List (List UInt8) := if text = [] then [] else text.splitOn lineFeed

/-- The last lines of a file, by their definition: the file is read as a whole. -/
def plainTail (content : List UInt8) (maxLines : Int) : List (List UInt8) × Bool :=
  let lines := textLines (trimRight [carriageReturn, lineFeed] content)
  ((lines.rtake (effectiveMaxLines maxLines)).map (trimRight [carriageReturn]),
    effectiveMaxLines maxLines < lines.length)

def lastChunks (content : List UInt8) (chunks : Nat) : List UInt8 :=
  content.drop (content.length - chunks * tailReadChunkSize)

def unreadPart (content : List UInt8) (chunks : Nat) : List UInt8 :=
  content.take (content.length - chunks * tailReadChunkSize)

/-- The loop stops before it comes to the beginning of the file. -/
structure StopsAt (content : List UInt8) (maxLines chunks : Nat) : Prop where
  short : chunks * tailReadChunkSize < content.length
  enough : maxLines < (lastChunks content chunks).count lineFeed
  first : ∀ k < chunks, (lastChunks content k).count lineFeed ≤ maxLines

section
variable {content buffer : List UInt8} {n k : Nat}

theorem lastChunks_of_le (h : content.length ≤ k * tailReadChunkSize) : lastChunks content k = content := by
  rw [lastChunks, Nat.sub_eq_zero_of_le h, drop_zero]

theorem unreadPart_append_lastChunks (content : List UInt8) (k : Nat) :
    unreadPart content k ++ lastChunks content k = content :=
  take_append_drop ..

theorem sub_chunkSize (size k : Nat) : size - k * tailReadChunkSize - chunkSize (size - k * tailReadChunkSize) =
    size - (k + 1) * tailReadChunkSize := by
  rw [chunkSize, Nat.succ_mul]
  split <;> omega

theorem chunk_append_lastChunks (content : List UInt8) (k : Nat) :
    (content.drop (content.length - (k + 1) * tailReadChunkSize)).take
      (chunkSize (content.length - k * tailReadChunkSize)) ++ lastChunks content k = lastChunks content (k + 1) := by
  have hend : content.length - k * tailReadChunkSize = content.length - (k + 1) * tailReadChunkSize +
      chunkSize (content.length - k * tailReadChunkSize) := by
    rw [← sub_chunkSize, Nat.sub_add_cancel]
    rw [chunkSize]
    split <;> omega
  have hlast : lastChunks content k = (content.drop (content.length - (k + 1) * tailReadChunkSize)).drop
      (chunkSize (content.length - k * tailReadChunkSize)) := by
    rw [lastChunks, drop_drop, ← hend]
  rw [hlast, take_append_drop, lastChunks]

theorem readChunks_lastChunks (fuel : Nat) (hfuel : content.length - k * tailReadChunkSize ≤ fuel)
    (hbefore : ∀ j < k, (lastChunks content j).count lineFeed ≤ n) :
    ∃ chunks, readChunks content n (content.length - k * tailReadChunkSize) (lastChunks content k) =
        lastChunks content chunks ∧
      (∀ j < chunks, (lastChunks content j).count lineFeed ≤ n) ∧
      (content.length ≤ chunks * tailReadChunkSize ∨ n < (lastChunks content chunks).count lineFeed) := by
  induction fuel generalizing k with
  | zero =>
    refine ⟨k, ?_, hbefore, .inl (by omega)⟩
    rw [readChunks, if_neg (by omega)]
  | succ fuel ih =>
    rw [readChunks]
    split
    · rename_i hread
      have hbefore' : ∀ j < k + 1, (lastChunks content j).count lineFeed ≤ n := by
        intro j hj
        rcases Nat.lt_succ_iff_lt_or_eq.1 hj with hj | rfl
        · exact hbefore j hj
        · exact hread.2
      have hpos := tailReadChunkSize_pos
      obtain ⟨chunks, hchunks⟩ := ih (by rw [Nat.succ_mul]; omega) hbefore'
      refine ⟨chunks, ?_⟩
      dsimp only
      rw [sub_chunkSize, chunk_append_lastChunks]
      exact hchunks
    · rename_i hstop
      exact ⟨k, rfl, hbefore, by omega⟩

theorem effectiveMaxLines_pos (maxLines : Int) : 0 < effectiveMaxLines maxLines := by
  rw [effectiveMaxLines]
  split <;> omega

theorem tailLines_eq (n : Nat) (buffer : List UInt8) : tailLines n buffer =
    (((textLines (trimRight [carriageReturn, lineFeed] buffer)).rtake n).map (trimRight [carriageReturn]),
      decide (n < (textLines (trimRight [carriageReturn, lineFeed] buffer)).length)) := by
  rw [tailLines, textLines]
  by_cases hempty : trimRight [carriageReturn, lineFeed] buffer = []
  · simp [hempty]
  · simp only [hempty, if_false, List.rtake, decide_eq_true_eq]
    split
    · rfl
    · rename_i hshort
      rw [Nat.sub_eq_zero_of_le (Nat.not_lt.1 hshort), drop_zero]

theorem plainTail_eq (content : List UInt8) (maxLines : Int) :
    plainTail content maxLines = tailLines (effectiveMaxLines maxLines) content :=
  (tailLines_eq _ _).symm

theorem readTailLines_cases (path : String) (content : List UInt8) (maxLines : Int) :
    ((∀ chunks, ¬ StopsAt content (effectiveMaxLines maxLines) chunks) ∧
      readTailLines path maxLines (.file content) = .ok (tailLines (effectiveMaxLines maxLines) content)) ∨
    ∃ chunks, StopsAt content (effectiveMaxLines maxLines) chunks ∧
      readTailLines path maxLines (.file content) =
        .ok (tailLines (effectiveMaxLines maxLines) (lastChunks content chunks)) := by
  have hnone : ∀ j < 0, (lastChunks content j).count lineFeed ≤ effectiveMaxLines maxLines := nofun
  obtain ⟨chunks, hread, hbefore, hstop⟩ := readChunks_lastChunks content.length (Nat.sub_le ..) hnone
  have hstart : lastChunks content 0 = [] := by simp [lastChunks]
  rw [Nat.zero_mul, Nat.sub_zero, hstart] at hread
  have hresult : readTailLines path maxLines (.file content) =
      .ok (tailLines (effectiveMaxLines maxLines) (lastChunks content chunks)) := by
    rw [readTailLines]
    split
    · rename_i hzero
      rw [length_eq_zero_iff] at hzero
      subst hzero
      simp [lastChunks, tailLines, trimRight]
    · rw [hread]
  rcases Nat.lt_or_ge (chunks * tailReadChunkSize) content.length with hshort | hall
  · exact .inr ⟨chunks, ⟨hshort, hstop.resolve_left (Nat.not_le.2 hshort), hbefore⟩, hresult⟩
  · refine .inl ⟨fun k hk => ?_, ?_⟩
    · have hlt : k < chunks := Nat.lt_of_mul_lt_mul_right (hk.short.trans_le hall)
      exact absurd hk.enough (Nat.not_lt.2 (hbefore k hlt))
    · rw [hresult, lastChunks_of_le hall]

theorem StopsAt.unique (h : StopsAt content n k) (h' : StopsAt content n k') : k = k' := by
  rcases Nat.lt_trichotomy k k' with hlt | rfl | hlt
  · exact absurd h.enough (Nat.not_lt.2 (h'.first k hlt))
  · rfl
  · exact absurd h'.enough (Nat.not_lt.2 (h.first k' hlt))

theorem readTailLines_of_stopsAt (path : String)
    (h : StopsAt content (effectiveMaxLines maxLines) k) : readTailLines path maxLines (.file content) =
      .ok (tailLines (effectiveMaxLines maxLines) (lastChunks content k)) := by
  rcases readTailLines_cases path content maxLines with ⟨hnot, -⟩ | ⟨chunks, hstop, hread⟩
  · exact absurd h (hnot k)
  · cases hstop.unique h
    exact hread

/-- What was read is enough: there is nothing but line ends in the file; or at least as many of the line feeds as
lines are wanted lie before the line ends at the end; or what was not read, and the rest of that line, are carriage
returns. -/
def Suffices (unread : List UInt8) (maxLines : Nat) (buffer : List UInt8) : Prop :=
  trimRight [carriageReturn, lineFeed] (unread ++ buffer) = [] ∨
    maxLines ≤ (trimRight [carriageReturn, lineFeed] buffer).count lineFeed ∨
    ∀ b ∈ unread ++ (trimRight [carriageReturn, lineFeed] buffer).takeWhile (· ≠ lineFeed), b = carriageReturn

theorem trimRight_eq_nil_iff : trimRight cutset bytes = [] ↔ ∀ b ∈ bytes, b ∈ cutset := by
  rw [trimRight, rdropWhile_eq_nil_iff]
  simp

theorem trimRight_append_eq_iff (hne : front ≠ []) :
    trimRight cutset (front ++ bytes) = trimRight cutset bytes ↔ ∀ b ∈ front ++ bytes, b ∈ cutset := by
  rw [← trimRight_eq_nil_iff]
  by_cases h : trimRight cutset bytes = []
  · rw [h]
  · have happend : trimRight cutset (front ++ bytes) = front ++ trimRight cutset bytes :=
      rdropWhile_append_of_ne_nil h
    rw [happend]
    simp [hne, h]

theorem tailLines_of_blank (h : trimRight [carriageReturn, lineFeed] buffer = []) : tailLines n buffer = ([], false) := by
  rw [tailLines]
  simp only [h, if_true]

theorem tailLines_of_not_blank (h : trimRight [carriageReturn, lineFeed] buffer ≠ []) : tailLines n buffer =
    ((((trimRight [carriageReturn, lineFeed] buffer).splitOn lineFeed).rtake n).map (trimRight [carriageReturn]),
      decide (n < ((trimRight [carriageReturn, lineFeed] buffer).splitOn lineFeed).length)) := by
  rw [tailLines_eq, textLines, if_neg h]

theorem not_mem_lineFeed {bytes : List UInt8} (h : ∀ b ∈ bytes, b = carriageReturn) : lineFeed ∉ bytes :=
  fun hmem => absurd (h lineFeed hmem) (by decide)

theorem lines_eq_iff {unread text : List UInt8} (hne : unread ≠ []) :
    (text.splitOn lineFeed).map (trimRight [carriageReturn]) =
        ((unread ++ text).splitOn lineFeed).map (trimRight [carriageReturn]) ↔
      ∀ b ∈ unread ++ text.takeWhile (· ≠ lineFeed), b = carriageReturn := by
  have htext : text.splitOn lineFeed = text.takeWhile (· ≠ lineFeed) :: (text.splitOn lineFeed).tail :=
    splitOn_append_of_not_mem (not_mem_nil)
  have hfirst (h : lineFeed ∉ unread) : (text.splitOn lineFeed).map (trimRight [carriageReturn]) =
        ((unread ++ text).splitOn lineFeed).map (trimRight [carriageReturn]) ↔
      ∀ b ∈ unread ++ text.takeWhile (· ≠ lineFeed), b = carriageReturn := by
    rw [splitOn_append_of_not_mem h, htext, map_cons, map_cons, tail_cons, List.cons.injEq,
      and_iff_left rfl, eq_comm, trimRight_append_eq_iff hne]
    simp only [mem_singleton]
  constructor
  · intro heq
    have hlength := congrArg List.length heq
    rw [length_map, length_map, length_splitOn, length_splitOn, count_append] at hlength
    exact (hfirst (count_eq_zero.1 (by omega))).1 heq
  · intro hall
    exact (hfirst (not_mem_lineFeed (forall_mem_append.1 hall).1)).2 hall

/-- The lines of the last part of a text are its last lines exactly if that part suffices. -/
theorem tailLines_append_iff (hn : 0 < n) (hunread : unread ≠ []) :
    tailLines n buffer = tailLines n (unread ++ buffer) ↔ Suffices unread n buffer := by
  by_cases hwhole : trimRight [carriageReturn, lineFeed] (unread ++ buffer) = []
  · have hblank : trimRight [carriageReturn, lineFeed] buffer = [] :=
      trimRight_eq_nil_iff.2 (forall_mem_append.1 (trimRight_eq_nil_iff.1 hwhole)).2
    rw [tailLines_of_blank hblank, tailLines_of_blank hwhole]
    exact ⟨fun _ => .inl hwhole, fun _ => rfl⟩
  rw [tailLines_of_not_blank hwhole, Suffices, or_iff_right hwhole]
  by_cases hblank : trimRight [carriageReturn, lineFeed] buffer = []
  · -- all that was read are line ends: no line, though there is one
    rw [tailLines_of_blank hblank, hblank, count_nil, or_iff_right (Nat.not_le.2 hn), takeWhile_nil,
      append_nil]
    constructor
    · intro heq
      have hlines := congrArg (List.length ∘ Prod.fst) heq
      rw [Function.comp_apply, Function.comp_apply, length_map, List.rtake, length_drop, length_splitOn,
        length_nil] at hlines
      omega
    · intro hall
      refine absurd (trimRight_eq_nil_iff.2 (forall_mem_append.2 ⟨fun b hb => ?_, ?_⟩)) hwhole
      · rw [hall b hb]
        decide
      · exact trimRight_eq_nil_iff.1 hblank
  · have happend : trimRight [carriageReturn, lineFeed] (unread ++ buffer) =
        unread ++ trimRight [carriageReturn, lineFeed] buffer := rdropWhile_append_of_ne_nil hblank
    rw [tailLines_of_not_blank hblank, happend]
    generalize trimRight [carriageReturn, lineFeed] buffer = text
    rw [length_splitOn, length_splitOn, count_append]
    by_cases henough : n ≤ text.count lineFeed
    · -- the lines that are wanted are complete
      have htail : n ≤ (text.splitOn lineFeed).tail.length := by
        rw [length_tail, length_splitOn]
        exact henough
      have hlast : ∀ text' : List UInt8, (∃ init, text'.splitOn lineFeed = init ++ (text.splitOn lineFeed).tail ∧ init ≠ []) →
          (text'.splitOn lineFeed).rtake n = (text.splitOn lineFeed).tail.rtake n := by
        rintro text' ⟨init, hinit, -⟩
        rw [hinit, rtake_append_of_le htail]
      rw [hlast text (splitOn_append_tail lineFeed [] text), hlast _ (splitOn_append_tail lineFeed unread text)]
      have hmore : n < text.count lineFeed + 1 := by omega
      have hmore' : n < unread.count lineFeed + text.count lineFeed + 1 := by omega
      simp only [hmore, hmore', decide_true, henough, true_or]
    · rw [or_iff_right henough, Prod.mk.injEq, ← lines_eq_iff hunread,
        rtake_of_length_le (by rw [length_splitOn]; omega : (text.splitOn lineFeed).length ≤ n)]
      constructor
      · rintro ⟨hlines, hflag⟩
        rwa [rtake_of_length_le] at hlines
        rw [length_splitOn, count_append]
        have hno : ¬ n < text.count lineFeed + 1 := by omega
        rw [decide_eq_false hno, eq_comm, decide_eq_false_iff_not] at hflag
        omega
      · intro hlines
        have hlength := congrArg List.length hlines
        rw [length_map, length_map, length_splitOn, length_splitOn, count_append] at hlength
        refine ⟨?_, by rw [hlength]⟩
        rw [rtake_of_length_le (by rw [length_splitOn, count_append]; omega), hlines]

end

/-- `readTailLines` returns the last lines of a file by their definition exactly if, where it stops before the
beginning of the file, what it has read suffices. -/
theorem readTailLines_eq_plainTail_iff (path : String) (content : List UInt8) (maxLines : Int) :
    readTailLines path maxLines (.file content) = .ok (plainTail content maxLines) ↔
      ∀ chunks, StopsAt content (effectiveMaxLines maxLines) chunks →
        Suffices (unreadPart content chunks) (effectiveMaxLines maxLines) (lastChunks content chunks) := by
  rw [plainTail_eq]
  rcases readTailLines_cases path content maxLines with ⟨hnot, hread⟩ | ⟨chunks, hstop, hread⟩
  · exact ⟨fun _ chunks hstop => absurd hstop (hnot chunks), fun _ => hread⟩
  · have hunread : unreadPart content chunks ≠ [] := by
      rw [unreadPart, ← length_pos_iff, length_take]
      have hshort := hstop.short
      omega
    have hiff : tailLines _ (lastChunks content chunks) = tailLines _ (unreadPart content chunks ++ _) ↔ _ :=
      tailLines_append_iff (effectiveMaxLines_pos maxLines) hunread
    rw [unreadPart_append_lastChunks] at hiff
    rw [hread, Except.ok.injEq, hiff]
    constructor
    · intro hsuffices k hk
      cases hstop.unique hk
      exact hsuffices
    · intro hall
      exact hall chunks hstop

def blankEnd (lineFeeds : Nat) : List UInt8 := 120 :: List.replicate lineFeeds lineFeed

theorem lastChunks_blankEnd (h : tailReadChunkSize ≤ lineFeeds) :
    lastChunks (blankEnd lineFeeds) 1 = List.replicate tailReadChunkSize lineFeed := by
  have hdrop : lineFeeds + 1 - tailReadChunkSize = lineFeeds - tailReadChunkSize + 1 := by omega
  rw [lastChunks, blankEnd, length_cons, length_replicate, Nat.one_mul, hdrop, drop_succ_cons,
    drop_replicate, Nat.sub_sub_self h]

theorem trimRight_replicate (lineFeeds : Nat) :
    trimRight [carriageReturn, lineFeed] (List.replicate lineFeeds lineFeed) = [] := by
  rw [trimRight_eq_nil_iff]
  intro b hb
  rw [eq_of_mem_replicate hb]
  decide

theorem trimRight_blankEnd (lineFeeds : Nat) : trimRight [carriageReturn, lineFeed] (blankEnd lineFeeds) = [120] := by
  have happend : blankEnd lineFeeds = [120] ++ List.replicate lineFeeds lineFeed := rfl
  rw [happend, trimRight, rdropWhile_append_of_nil (trimRight_replicate lineFeeds)]
  rfl

theorem stopsAt_blankEnd (h : tailReadChunkSize ≤ lineFeeds) : StopsAt (blankEnd lineFeeds) 2 1 where
  short := by
    rw [blankEnd, length_cons, length_replicate]
    omega
  enough := by
    rw [lastChunks_blankEnd h, count_replicate_self]
    decide
  first k hk := by
    have hempty : lastChunks (blankEnd lineFeeds) k = [] := by
      rw [Nat.lt_one_iff.1 hk, lastChunks, Nat.zero_mul, Nat.sub_zero, drop_length]
    rw [hempty]
    exact Nat.zero_le _

/-- The last chunk holds line feeds only: the line before them is not returned. -/
theorem readTailLines_blankEnd : readTailLines "service.log" 2 (.file (blankEnd 20000)) = .ok ([], false) ∧
    plainTail (blankEnd 20000) 2 = ([[120]], false) ∧
    ¬ ∀ (path : String) (content : List UInt8) (maxLines : Int),
      readTailLines path maxLines (.file content) = .ok (plainTail content maxLines) := by
  have hlong : tailReadChunkSize ≤ 20000 := by decide
  have hread : readTailLines "service.log" 2 (.file (blankEnd 20000)) = .ok ([], false) := by
    have hstop : StopsAt (blankEnd 20000) (effectiveMaxLines 2) 1 := stopsAt_blankEnd hlong
    rw [readTailLines_of_stopsAt "service.log" hstop, lastChunks_blankEnd hlong,
      tailLines_of_blank (trimRight_replicate _)]
  have hplain : plainTail (blankEnd 20000) 2 = ([[120]], false) := by
    rw [plainTail, trimRight_blankEnd]
    rfl
  refine ⟨hread, hplain, fun h => ?_⟩
  have heq := h "service.log" (blankEnd 20000) 2
  rw [hread, hplain] at heq
  cases heq

end Trakrai.RuntimeManager
