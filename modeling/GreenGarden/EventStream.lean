/-
GreenGarden/EventStream.lean

Server-sent events (`text/event-stream`), as a library over bytes.

`Reader` is the client's side of the format: lines end with LF, CR or CRLF, a
`data` line adds to the event under way, an empty line dispatches it, and what
is not followed by an empty line is never dispatched.  The fields `event`,
`id` and `retry` do not touch the data and are passed over.  The reader takes
one byte at a time, so it does not see how the bytes were cut into pieces
(`feedAll_eq`), not even inside a character.

`frame` is the server's side: one event with one `data` line.  Main result
(`read_prefix`): after any beginning of a stream of frames the reader has
dispatched exactly the frames that are there as a whole; `read_frames` is the
case of the whole stream.
-/
import Mathlib

namespace EventStream

/-- Bytes on the wire. -/
abbrev Bytes := List UInt8

/-- A text in UTF-8. -/
def utf8 (text : List Char) : Bytes := text.flatMap String.utf8EncodeChar

/-- `Bytes.decode("utf-8")`. -/
def decode (bytes : Bytes) : Option (List Char) :=
  bytes.toByteArray.utf8Decode?.map Array.toList

/-- Line feed. -/
def lf : UInt8 := 10

/-- Carriage return. -/
def cr : UInt8 := 13

/-- The byte between a field and its value. -/
def colon : UInt8 := 58

/-- The byte that is dropped behind a colon. -/
def space : UInt8 := 32

/-- The name of the field that carries an event's text. -/
def dataName : Bytes := [100, 97, 116, 97]

/-! ### The reader -/

/-- The line under way, whether a CR has just ended one, the data lines of the
event under way, and the events dispatched so far. -/
structure Reader where
  line : Bytes
  afterCr : Bool
  data : List Bytes
  events : List Bytes

namespace Reader

/-- Nothing has been read. -/
def init : Reader := ⟨[], false, [], []⟩

/-- An event without a data line is dropped. -/
def dispatch (s : Reader) : Reader :=
  if s.data = [] then s
  else { s with data := [], events := s.events ++ [List.intercalate [lf] s.data] }

/-- One leading space does not belong to a value. -/
def fieldValue : Bytes → Bytes
  | [] => []
  | b :: bytes => if b = space then bytes else b :: bytes

/-- A line that is not empty: a comment, or a field with its value. -/
def field (s : Reader) (line : Bytes) : Reader :=
  if line.takeWhile (· ≠ colon) = dataName then
    { s with data := s.data ++ [fieldValue ((line.dropWhile (· ≠ colon)).drop 1)] }
  else s

/-- The end of a line. -/
def endLine (s : Reader) : Reader :=
  if s.line = [] then s.dispatch else { s.field s.line with line := [] }

/-- One more byte. -/
def step (s : Reader) (b : UInt8) : Reader :=
  if b = lf then
    if s.afterCr then { s with afterCr := false } else s.endLine
  else if b = cr then { s.endLine with afterCr := true }
  else { s with line := s.line ++ [b], afterCr := false }

/-- One more piece. -/
def feed (s : Reader) (piece : Bytes) : Reader := piece.foldl step s

end Reader

open Reader

/-- The events of a stream that ends here. -/
def read (wire : Bytes) : List Bytes := (init.feed wire).events

/-- The reader does not see where the pieces begin. -/
theorem feedAll_eq (pieces : List Bytes) (s : Reader) :
    pieces.foldl feed s = s.feed pieces.flatten :=
  List.foldl_flatten.symm

/-! ### The writer -/

/-- One event with one line of data. -/
def frame (data : Bytes) : Bytes := dataName ++ [colon, space] ++ data ++ [lf, lf]

/-- A stream of events. -/
def frames (events : List Bytes) : Bytes := events.flatMap frame

/-- Bytes that stay within a line. -/
def OneLine (bytes : Bytes) : Prop := lf ∉ bytes ∧ cr ∉ bytes

namespace OneLine

theorem tail {b : UInt8} {bytes : Bytes} (h : OneLine (b :: bytes)) : OneLine bytes :=
  ⟨fun hb => h.1 (List.mem_cons_of_mem _ hb), fun hb => h.2 (List.mem_cons_of_mem _ hb)⟩

theorem append {bytes bytes' : Bytes} (h : OneLine bytes) (h' : OneLine bytes') :
    OneLine (bytes ++ bytes') :=
  ⟨fun hb => (List.mem_append.mp hb).elim h.1 h'.1,
    fun hb => (List.mem_append.mp hb).elim h.2 h'.2⟩

theorem left {bytes bytes' : Bytes} (h : OneLine (bytes ++ bytes')) : OneLine bytes :=
  ⟨fun hb => h.1 (List.mem_append_left _ hb), fun hb => h.2 (List.mem_append_left _ hb)⟩

end OneLine

theorem oneLine_head : OneLine (dataName ++ [colon, space]) := by
  constructor <;> decide

/-! ### Reading a frame -/

/-- The reader between two events. -/
def idle (events : List Bytes) : Reader := ⟨[], false, [], events⟩

/-- Bytes within a line are collected. -/
theorem feed_oneLine {bytes : Bytes} (h : OneLine bytes) (line : Bytes) (data events : List Bytes) :
    feed ⟨line, false, data, events⟩ bytes = ⟨line ++ bytes, false, data, events⟩ := by
  induction bytes generalizing line with
  | nil => simp [feed]
  | cons b bytes ih =>
    have hlf : b ≠ lf := fun heq => h.1 (heq ▸ List.mem_cons_self)
    have hcr : b ≠ cr := fun heq => h.2 (heq ▸ List.mem_cons_self)
    have hstep : step ⟨line, false, data, events⟩ b = ⟨line ++ [b], false, data, events⟩ := by
      rw [step, if_neg hlf, if_neg hcr]
    show feed (step _ b) bytes = _
    rw [hstep, ih h.tail, List.append_assoc, List.singleton_append]

/-- The data line of a frame. -/
theorem endLine_data (data : Bytes) (events : List Bytes) :
    endLine ⟨dataName ++ [colon, space] ++ data, false, [], events⟩
      = ⟨[], false, [data], events⟩ := by
  have hline : dataName ++ [colon, space] ++ data ≠ [] := List.cons_ne_nil _ _
  have hname : (dataName ++ [colon, space] ++ data).takeWhile (· ≠ colon) = dataName := rfl
  have hvalue : (dataName ++ [colon, space] ++ data).dropWhile (· ≠ colon)
      = colon :: space :: data := rfl
  rw [endLine, if_neg hline, field, if_pos hname, hvalue]
  rfl

/-- What the reader keeps of a frame up to the end of its data line. -/
theorem feed_line {data : Bytes} (h : OneLine data) (events : List Bytes) :
    (idle events).feed (dataName ++ [colon, space] ++ data ++ [lf])
      = ⟨[], false, [data], events⟩ := by
  have hline : OneLine (dataName ++ [colon, space] ++ data) := oneLine_head.append h
  rw [feed, List.foldl_append]
  have hbefore := feed_oneLine hline [] [] events
  rw [List.nil_append] at hbefore
  show [lf].foldl step (feed (idle events) _) = _
  rw [idle, hbefore]
  exact endLine_data data events

/-- A frame dispatches its event. -/
theorem feed_frame {data : Bytes} (h : OneLine data) (events : List Bytes) :
    (idle events).feed (frame data) = idle (events ++ [data]) := by
  have hsplit : frame data = dataName ++ [colon, space] ++ data ++ [lf] ++ [lf] := by
    simp [frame]
  rw [hsplit, feed, List.foldl_append]
  show [lf].foldl step (feed _ _) = _
  rw [feed_line h]
  simp [step, endLine, dispatch, idle, List.intercalate]

/-- A frame that is not there as a whole dispatches nothing. -/
theorem feed_part {data part rest : Bytes} (h : OneLine data) (hpart : frame data = part ++ rest)
    (hrest : rest ≠ []) (events : List Bytes) :
    ((idle events).feed part).events = events := by
  have hlf : part <+: dataName ++ [colon, space] ++ data ++ [lf] := by
    have hwhole : frame data = dataName ++ [colon, space] ++ data ++ [lf] ++ [lf] := by
      simp [frame]
    refine List.prefix_of_prefix_length_le ⟨rest, hpart.symm⟩ ⟨[lf], hwhole.symm⟩ ?_
    have hlength := congrArg List.length (hpart.symm.trans hwhole)
    have hpos := List.length_pos_iff.mpr hrest
    simp only [List.length_append, List.length_cons, List.length_nil] at hlength ⊢
    omega
  obtain ⟨rest', hrest'⟩ := hlf
  rcases List.eq_nil_or_concat rest' with rfl | ⟨before, b, rfl⟩
  · -- all but the empty line is there
    rw [List.append_nil] at hrest'
    rw [hrest', feed_line h]
  · -- the data line is not finished
    have hline : part ++ before = dataName ++ [colon, space] ++ data := by
      rw [List.concat_eq_append, ← List.append_assoc] at hrest'
      exact (List.append_inj' hrest' rfl).1
    have hone : OneLine (part ++ before) := by
      rw [hline]
      exact oneLine_head.append h
    rw [idle, feed_oneLine hone.left]

/-! ### Reading a stream -/

theorem feed_frames {events : List Bytes} (h : ∀ data ∈ events, OneLine data)
    (before : List Bytes) : (idle before).feed (frames events) = idle (before ++ events) := by
  induction events generalizing before with
  | nil =>
    rw [List.append_nil]
    rfl
  | cons data events ih =>
    have hcons : frames (data :: events) = frame data ++ frames events := rfl
    rw [hcons, feed, List.foldl_append]
    show feed (feed _ _) _ = _
    rw [feed_frame (h data List.mem_cons_self), ih fun d hd => h d (List.mem_cons_of_mem _ hd),
      List.append_assoc, List.singleton_append]

/-- What the reader has dispatched after a part of the stream. -/
theorem feed_frames_part {events : List Bytes} (h : ∀ data ∈ events, OneLine data)
    {part rest : Bytes} (hpart : frames events = part ++ rest) (before : List Bytes) :
    ∃ n ≤ events.length, ((idle before).feed part).events = before ++ events.take n ∧
      frames (events.take n) <+: part ∧
      (n < events.length → part.length < (frames (events.take (n + 1))).length) := by
  induction events generalizing part before with
  | nil =>
    obtain ⟨rfl, -⟩ := List.append_eq_nil_iff.mp hpart.symm
    exact ⟨0, le_rfl, by simp [feed, idle], List.nil_prefix, by simp⟩
  | cons data events ih =>
    have hdata := h data List.mem_cons_self
    have hcons : frames (data :: events) = frame data ++ frames events := rfl
    rw [hcons] at hpart
    rcases List.append_eq_append_iff.mp hpart with ⟨more, hpart', hrest⟩ | ⟨more, hframe, -⟩
    · -- the first frame is there; the rest is a part of the others
      obtain ⟨n, hn, hevents, hprefix, hnext⟩ := ih (fun d hd => h d (List.mem_cons_of_mem _ hd))
        hrest (before ++ [data])
      refine ⟨n + 1, Nat.succ_le_succ hn, ?_, ?_, ?_⟩
      · rw [hpart', feed, List.foldl_append]
        show (feed (feed _ _) _).events = _
        rw [feed_frame hdata, hevents, List.take_succ_cons, List.append_assoc,
          List.singleton_append]
      · rw [hpart']
        exact (List.prefix_append_right_inj (frame data)).mpr hprefix
      · intro hlt
        have hmore := hnext (Nat.lt_of_succ_lt_succ hlt)
        have hframes : frames ((data :: events).take (n + 1 + 1))
            = frame data ++ frames (events.take (n + 1)) := rfl
        rw [hpart', hframes, List.length_append, List.length_append]
        omega
    · rcases eq_or_ne more [] with rfl | hmore
      · -- the first frame ends exactly here
        rw [List.append_nil] at hframe
        obtain rfl := hframe
        refine ⟨1, by simp, ?_, ?_, ?_⟩
        · rw [feed_frame hdata]
          rfl
        · simp [frames]
        · intro hlt
          rw [List.length_cons] at hlt
          obtain ⟨next, events, rfl⟩ := List.exists_cons_of_length_pos
            (Nat.lt_of_succ_lt_succ hlt)
          simp [frames, frame]
      · -- the first frame is cut
        refine ⟨0, Nat.zero_le _, ?_, List.nil_prefix, fun _ => ?_⟩
        · rw [feed_part hdata hframe hmore, List.take_zero, List.append_nil]
        · have hpos := List.length_pos_iff.mpr hmore
          have hone : frames ((data :: events).take (0 + 1)) = frame data := by simp [frames]
          rw [hone, hframe, List.length_append]
          omega

/-- **Reading is complete**: the events of a stream are read back. -/
theorem read_frames {events : List Bytes} (h : ∀ data ∈ events, OneLine data) :
    read (frames events) = events := by
  show ((idle []).feed _).events = _
  rw [feed_frames h]
  rfl

/-- **Reading is prompt**: a stream that was cut anywhere shows exactly the
events that are there as a whole. -/
theorem read_prefix {events : List Bytes} (h : ∀ data ∈ events, OneLine data) {part : Bytes}
    (hpart : part <+: frames events) :
    ∃ n ≤ events.length, read part = events.take n ∧ frames (events.take n) <+: part ∧
      (n < events.length → part.length < (frames (events.take (n + 1))).length) := by
  obtain ⟨rest, hrest⟩ := hpart
  obtain ⟨n, hn, hevents, hmore⟩ := feed_frames_part h hrest.symm []
  exact ⟨n, hn, hevents, hmore⟩

/-! ### Text -/

/-- The bytes of a character are those of an ASCII character or all high. -/
theorem mem_utf8EncodeChar {c : Char} {b : UInt8} (hb : b ∈ String.utf8EncodeChar c) :
    b.toNat = c.toNat ∨ 128 ≤ b.toNat := by
  have hv : c.val.toNat < 1114112 := by
    have := c.valid
    rcases this with h | ⟨-, h⟩
    · exact lt_trans h (by decide)
    · exact h
  have hlow : ∀ n : ℕ, n < 256 → (UInt8.ofNat n).toNat = n := by
    intro n hn
    exact UInt8.toNat_ofNat_of_lt hn
  rw [String.utf8EncodeChar] at hb
  have hval : c.toNat = c.val.toNat := rfl
  rw [hval]
  split at hb
  · rename_i h
    simp only [List.mem_cons, List.not_mem_nil, or_false] at hb
    left
    rw [hb, hlow _ (by omega)]
  · right
    split at hb <;> [skip; split at hb] <;>
      simp only [List.mem_cons, List.not_mem_nil, or_false] at hb <;>
      rcases hb with rfl | rfl | rfl | rfl <;> rw [hlow _ (by omega)] <;> omega

/-- A text without line ends has none in its bytes. -/
theorem oneLine_utf8 {text : List Char} (h : ∀ c ∈ text, c ≠ '\n' ∧ c ≠ '\r') :
    OneLine (utf8 text) := by
  have hchar : ∀ c d : Char, d.toNat < 128 →
      UInt8.ofNat d.toNat ∈ String.utf8EncodeChar c → c = d := by
    intro c d hd hmem
    have hnat : (UInt8.ofNat d.toNat).toNat = d.toNat :=
      UInt8.toNat_ofNat_of_lt (lt_trans hd (by decide))
    rcases mem_utf8EncodeChar hmem with heq | hge
    · rw [hnat] at heq
      exact Char.toNat_inj.mp heq.symm
    · omega
  constructor
  · intro hmem
    obtain ⟨c, hc, hb⟩ := List.mem_flatMap.mp hmem
    exact (h c hc).1 (hchar c '\n' (by decide) hb)
  · intro hmem
    obtain ⟨c, hc, hb⟩ := List.mem_flatMap.mp hmem
    exact (h c hc).2 (hchar c '\r' (by decide) hb)

/-- A text is decoded to itself. -/
theorem decode_utf8 (text : List Char) : decode (utf8 text) = some text := by
  have hbytes : (utf8 text).toByteArray = text.utf8Encode := rfl
  rw [decode, hbytes, List.utf8Decode?_utf8Encode]
  rfl

end EventStream
