import Mathlib.Algebra.Group.Int.Defs
import Mathlib.Algebra.Group.Nat.Defs
import Mathlib.Data.List.Infix
import Mathlib.Data.List.TakeDrop

/-!
# The configuration file

`os/linux/hif/cfg_parse.c`.  Lines are cut out of a window of 64 bytes that is read again for
each line; at the end of the file it keeps bytes of earlier lines.
-/

namespace Smartchip.Hif

/-! ## The lines -/

def crLf : List UInt8 := [13, 10]

/-- `strstr` for the end of a line, in a string that may end with a NUL. -/
def eolAt : List UInt8 → Option Nat
  | [] => none
  | a :: rest =>
      if a = 0 then none
      else if a = 13 ∧ rest.head? = some 10 then some 0
      else (eolAt rest).map (· + 1)

def cString (buffer : List UInt8) : List UInt8 := buffer.takeWhile (· ≠ 0)

/-- `cfg_content` and what lies around it.  It has been allocated with `kzalloc`, which gives
no memory of that size. -/
structure CfgContent where
  byte : Int → UInt8
  size : Nat
  allocated : size < 2 ^ 31

/-- The bytes from an offset on, which need not be in the file. -/
def chunk (content : Int → UInt8) (offset : Int) (n : Nat) : List UInt8 :=
  (List.range n).map fun i : Nat => content (offset + i)

inductive CfgKey where
  | ssid
  | channel
  | bw
  | workMode
  | channelplan
  | baFunc
  | scanChTo
  | scanPrbTimes
  | scanQueDeep
  | scanQueNodeTtl
  deriving DecidableEq

def bytesOf (text : String) : List UInt8 := text.toList.map fun c => UInt8.ofNat c.toNat

def CfgKey.key : CfgKey → List UInt8
  | .ssid => bytesOf "ssid"
  | .channel => bytesOf "channel"
  | .bw => bytesOf "bw"
  | .workMode => bytesOf "work_mode"
  | .channelplan => bytesOf "channelplan"
  | .baFunc => bytesOf "ba_func"
  | .scanChTo => bytesOf "scan_ch_to"
  | .scanPrbTimes => bytesOf "scan_prb_times"
  | .scanQueDeep => bytesOf "scan_que_deep"
  | .scanQueNodeTtl => bytesOf "scan_que_node_ttl"

/-- `__gl_cfg_parse_st`, in its order. -/
def glCfgParseSt : List CfgKey :=
  [.ssid, .channel, .bw, .workMode, .channelplan, .baFunc, .scanChTo, .scanPrbTimes,
    .scanQueDeep, .scanQueNodeTtl]

/-- The size of the field of `local_info_st` that a handler sets. -/
def CfgKey.fieldSize : CfgKey → Nat
  | .ssid => 32
  | .bw | .workMode => 4
  | .channel | .channelplan | .baFunc | .scanChTo | .scanPrbTimes | .scanQueDeep
  | .scanQueNodeTtl => 1

/-- How many bytes a handler stores from the start of its field on; the SSID is copied as long
as the value is. -/
def CfgKey.stored (key : CfgKey) (value : List UInt8) : Nat :=
  match key with
  | .ssid => value.length
  | .bw =>
      if bytesOf "20M" <+: value ∨ bytesOf "40M" <+: value then 4 else 0
  | .workMode =>
      if bytesOf "sta" <+: value ∨ bytesOf "ap" <+: value ∨ bytesOf "adhoc" <+: value ∨
        bytesOf "moniter" <+: value then 4 else 0
  | .channel | .channelplan | .baFunc | .scanChTo | .scanPrbTimes | .scanQueDeep
  | .scanQueNodeTtl => 1

def wfIsspace (x : UInt8) : Bool :=
  x = 32 || x = 9 || x = 10 || x = 12 || x = 8 || x = 13

def cfgBufferHandle (inBuffer : List UInt8) : List UInt8 := inBuffer.filter (! wfIsspace ·)

/-- The handler that is called, and the value that it is called with. -/
def cfgParseHandle (buffer : List UInt8) : Option (CfgKey × List UInt8) :=
  if 61 ∈ buffer then
    let key := buffer.takeWhile (· ≠ 61)
    let pos := buffer.drop (key.length + 1)
    (glCfgParseSt.find? fun entry => entry.key = key).map fun entry => (entry, pos)
  else none

/-- `pos` is of type `loff_t`.  `reads`, for the specification, are the parts of the file that
were read. -/
structure CfgParse where
  pos : Int
  readBuffer : List UInt8
  calls : List (CfgKey × List UInt8)
  reads : List (Int × Nat)

/-- `size_t` has 64 bits when `wide`; then the comparison is one without a sign. -/
def atEnd (wide : Bool) (offset : Int) (size : Nat) : Bool :=
  if wide then size ≤ offset % 2 ^ 64 else size ≤ offset

def cfgReadLine (wide : Bool) (file : CfgContent) (s : CfgParse) : Int × CfgParse :=
  if atEnd wide s.pos file.size then (0, s)
  else
    let readLength : Nat := if s.pos + 64 > file.size then (file.size - s.pos).toNat else 64
    let buffer := chunk file.byte s.pos readLength ++ s.readBuffer.drop readLength
    let s := { s with readBuffer := buffer, reads := s.reads ++ [(s.pos, readLength)] }
    match eolAt buffer with
    | some eol =>
        let ret := eol + 2
        -- `read_length` is of 32 bits without a sign
        (ret, { s with
          readBuffer := (buffer.set eol 0).set (eol + 1) 0
          pos := s.pos + readLength - ((readLength : Int) - ret) % 2 ^ 32 })
    | none => (-1, s)

/-- A line that has been read. -/
def cfgLine (readBuffer : List UInt8) : Option (CfgKey × List UInt8) :=
  let line := cString readBuffer
  if line = [] then none
  else
    let handleBuffer := cfgBufferHandle line
    if handleBuffer.head? = some 35 ∨ handleBuffer = [] then none
    else cfgParseHandle handleBuffer

def cfgLoop (wide : Bool) (file : CfgContent) : Nat → CfgParse → Option CfgParse
  | 0, _ => none
  | fuel + 1, s =>
      let (ret, s) := cfgReadLine wide file s
      if ret > 0 then
        cfgLoop wide file fuel { s with calls := s.calls ++ (cfgLine s.readBuffer).toList }
      else some s

def cfgStart : CfgParse := ⟨0, List.replicate 65 0, [], []⟩

def wfCfgFileParse (wide : Bool) (file : CfgContent) (fuel : Nat) : Option (Int × CfgParse) :=
  if file.size = 0 then some (-1, cfgStart)
  else (cfgLoop wide file fuel cfgStart).map fun s => (0, s)

/-! ## What is to hold -/

def CfgContent.text (file : CfgContent) : List UInt8 := chunk file.byte 0 file.size

structure Line (line : List UInt8) : Prop where
  short : line.length ≤ 62
  noNul : 0 ∉ line
  noEol : ¬ crLf <:+: line

/-- The handler and the value of a line `key=value`. -/
def keyValue (line : List UInt8) : Option (CfgKey × List UInt8) :=
  let text := line.filter (! wfIsspace ·)
  if text.head? = some 35 then none
  else
    glCfgParseSt.findSome? fun entry =>
      if entry.key ++ [61] <+: text then some (entry, text.drop (entry.key.length + 1)) else none

structure Parsed (text : List UInt8) (s : CfgParse) : Prop where
  inside : ∀ part ∈ s.reads, 0 ≤ part.1 ∧ part.1 + part.2 ≤ text.length
  fields : ∀ call ∈ s.calls, call.1.stored call.2 ≤ call.1.fieldSize
  exact : ∀ lines last, text = lines.flatMap (· ++ crLf) ++ last →
    (∀ line ∈ lines, Line line) → Line last →
    s.calls = (lines ++ [last]).filterMap keyValue

/-! ## When it does -/

/-- The first line of a text when the window shows all of it. -/
def firstLine (text : List UInt8) : Option (List UInt8) := (eolAt (text.take 64)).map text.take

def splitLines : Nat → List UInt8 → List (List UInt8) × List UInt8
  | 0, text => ([], text)
  | fuel + 1, text =>
      match firstLine text with
      | none => ([], text)
      | some line =>
          let r := splitLines fuel (text.drop (line.length + 2))
          (line :: r.1, r.2)

/-- The lines in front, and what follows them. -/
def cfgLines (text : List UInt8) : List (List UInt8) := (splitLines text.length text).1

def cfgRest (text : List UInt8) : List UInt8 := (splitLines text.length text).2

/-- What stands in the window behind its first bytes: the window that went so far was that of
the last line in front of so many bytes of the file, and the end of that line has been
cleared. -/
def leftover : List (List UInt8) → List UInt8 → Nat → UInt8
  | [], _, _ => 0
  | line :: earlier, rest, i =>
      let text := line ++ crLf ++ rest
      if i < text.length then
        if i = line.length ∨ i = line.length + 1 then 0 else text.getD i 0
      else leftover earlier text i

/-- The window behind some lines, at what follows them. -/
def window (lines : List (List UInt8)) (rest : List UInt8) : List UInt8 :=
  (List.range 64).map fun i =>
    if i < rest.length then rest.getD i 0 else leftover lines.reverse rest i

def lastWindow (text : List UInt8) : List UInt8 := window (cfgLines text) (cfgRest text)

/-- The line that ends in the bytes left over. -/
def lastLine (text : List UInt8) : Option (List UInt8) :=
  if cfgRest text = [] then none
  else (eolAt (lastWindow text)).map (lastWindow text).take

structure Readable (wide : Bool) (text : List UInt8) : Prop where
  fields : ∀ line ∈ cfgLines text ++ (lastLine text).toList, ∀ call ∈ keyValue line,
    call.1.stored call.2 ≤ call.1.fieldSize
  straight : wide = false → lastLine text = none
  last : Line (cfgRest text) → (lastLine text).bind keyValue = keyValue (cfgRest text)

/-! ## The ends of lines -/

section Ends

variable {text line more xs ys : List UInt8} {e : Nat}

theorem eolAt_line (noNul : 0 ∉ line) (noEol : ¬ crLf <:+: line) (more : List UInt8) :
    eolAt (line ++ 13 :: 10 :: more) = some line.length := by
  induction line with
  | nil => simp [eolAt]
  | cons a line ih =>
      have nonzero : a ≠ 0 := fun same => noNul (by simp [same])
      have apart : ¬ (a = 13 ∧ (line ++ 13 :: 10 :: more).head? = some 10) := by
        rintro ⟨rfl, next⟩
        cases line with
        | nil => simp at next
        | cons b line =>
            obtain rfl : b = 10 := by simpa using next
            exact noEol ⟨[], line, rfl⟩
      have rest := ih (fun member => noNul (List.mem_cons_of_mem a member))
        (fun inside => noEol (inside.trans (List.suffix_cons a line).isInfix))
      simp only [List.cons_append, eolAt, nonzero, apart, if_false, rest, Option.map_some,
        List.length_cons]

theorem eolAt_some (ends : eolAt xs = some e) :
    ∃ line more, xs = line ++ 13 :: 10 :: more ∧ line.length = e ∧ 0 ∉ line ∧
      ¬ crLf <:+: line := by
  induction xs generalizing e with
  | nil => simp [eolAt] at ends
  | cons a xs ih =>
      unfold eolAt at ends
      split_ifs at ends with zero here
      · obtain ⟨rfl, next⟩ := here
        obtain rfl : 0 = e := by simpa using ends
        cases xs with
        | nil => simp at next
        | cons b xs =>
            obtain rfl : b = 10 := by simpa using next
            exact ⟨[], xs, rfl, rfl, by simp, by simp [crLf]⟩
      · rw [Option.map_eq_some_iff] at ends
        obtain ⟨k, later, rfl⟩ := ends
        obtain ⟨line, more, rfl, length, noNul, noEol⟩ := ih later
        refine ⟨a :: line, more, rfl, by simp [length], ?_, ?_⟩
        · rw [List.mem_cons, not_or]
          exact ⟨fun same => zero same.symm, noNul⟩
        · intro inside
          rcases List.infix_cons_iff.mp inside with start | later
          · apply here
            cases line with
            | nil => simp [crLf] at start
            | cons b line =>
                have both : 13 = a ∧ 10 = b := by simpa [crLf] using start
                exact ⟨both.1.symm, by simp [both.2]⟩
          · exact noEol later

/-- A NUL behind the bytes changes nothing. -/
theorem eolAt_snoc_zero (xs : List UInt8) : eolAt (xs ++ [0]) = eolAt xs := by
  induction xs with
  | nil => rfl
  | cons a xs ih =>
      have head : (xs ++ [0]).head? = some 10 ↔ xs.head? = some 10 := by
        cases xs <;> simp
      simp only [List.cons_append, eolAt, ih, head]

/-- What the C string is when the end of the line has been cleared. -/
theorem cString_cleared (ends : eolAt xs = some e) :
    cString ((xs.set e 0).set (e + 1) 0) = xs.take e := by
  obtain ⟨line, more, rfl, rfl, noNul, -⟩ := eolAt_some ends
  have cleared : ((line ++ 13 :: 10 :: more).set line.length 0).set (line.length + 1) 0 =
      line ++ 0 :: 0 :: more := by
    simp
  have stops : ∀ a ∈ line, decide (a ≠ 0) = true := by
    intro a member
    simpa using fun same : a = 0 => noNul (same ▸ member)
  rw [cleared, cString, List.takeWhile_append_of_pos stops]
  simp

theorem take_line (short : line.length ≤ 62) (more : List UInt8) :
    (line ++ 13 :: 10 :: more).take 64 = line ++ 13 :: 10 :: more.take (62 - line.length) := by
  have two : 64 - line.length = (62 - line.length) + 2 := by omega
  rw [List.take_append, List.take_of_length_le (by omega), two]
  rfl

theorem firstLine_iff :
    firstLine text = some line ↔ Line line ∧ ∃ more, text = line ++ 13 :: 10 :: more := by
  unfold firstLine
  constructor
  · intro first
    rw [Option.map_eq_some_iff] at first
    obtain ⟨e, ends, rfl⟩ := first
    obtain ⟨line, more, split, rfl, noNul, noEol⟩ := eolAt_some ends
    have whole : text = line ++ 13 :: 10 :: (more ++ text.drop 64) := by
      conv_lhs => rw [← List.take_append_drop 64 text, split]
      simp
    have length := congrArg List.length split
    simp only [List.length_take, List.length_append, List.length_cons] at length
    have same : text.take line.length = line := by
      rw [whole]
      simp
    rw [same]
    exact ⟨⟨by omega, noNul, noEol⟩, _, whole⟩
  · rintro ⟨⟨short, noNul, noEol⟩, more, rfl⟩
    rw [take_line short, eolAt_line noNul noEol]
    simp

end Ends

/-! ## The handlers -/

section Handlers

variable {text line : List UInt8}

/-- The key in front of the first `=`. -/
theorem key_prefix_iff {key : List UInt8} (noSep : 61 ∉ key) :
    key ++ [61] <+: text ↔ 61 ∈ text ∧ key = text.takeWhile (· ≠ 61) := by
  have stops : ∀ a ∈ key, decide (a ≠ 61) = true := by
    intro a member
    simpa using fun same : a = 61 => noSep (same ▸ member)
  constructor
  · rintro ⟨value, rfl⟩
    rw [List.append_assoc, List.takeWhile_append_of_pos stops]
    simp
  · rintro ⟨sep, rfl⟩
    obtain ⟨front, value, rfl, absent⟩ := List.eq_append_cons_of_mem sep
    have passes : ∀ a ∈ front, decide (a ≠ 61) = true := by
      intro a member
      simpa using fun same : a = 61 => absent (same ▸ member)
    rw [List.takeWhile_append_of_pos passes]
    exact ⟨value, by simp⟩

theorem noSep (entry : CfgKey) : 61 ∉ entry.key := by
  cases entry <;> decide

theorem find?_map_eq_findSome? {α β : Type} {p q : α → Bool} {f : α → β} {value : β}
    {xs : List α} (same : ∀ a, q a = p a) (gives : ∀ a, p a = true → f a = value) :
    ((xs.find? p).map fun a => (a, value)) =
      xs.findSome? fun a => if q a then some (a, f a) else none := by
  induction xs with
  | nil => rfl
  | cons a xs ih =>
      cases here : p a with
      | true => simp [here, same, gives a here]
      | false => simp [here, same, ih]

theorem cfgParseHandle_eq (text : List UInt8) :
    cfgParseHandle text = glCfgParseSt.findSome? fun entry =>
      if entry.key ++ [61] <+: text then some (entry, text.drop (entry.key.length + 1))
      else none := by
  have iff : ∀ entry : CfgKey, entry.key ++ [61] <+: text ↔
      61 ∈ text ∧ entry.key = text.takeWhile (· ≠ 61) := fun entry =>
    key_prefix_iff (noSep entry)
  unfold cfgParseHandle
  by_cases sep : 61 ∈ text
  · simp only [sep, if_true]
    have found := @find?_map_eq_findSome? CfgKey (List UInt8)
      (fun entry => entry.key = text.takeWhile (· ≠ 61))
      (fun entry => entry.key ++ [61] <+: text)
      (fun entry => text.drop (entry.key.length + 1))
      (text.drop ((text.takeWhile (· ≠ 61)).length + 1)) glCfgParseSt
      (fun entry => by simp [iff, sep])
      (fun entry same => by rw [of_decide_eq_true same])
    simpa using found
  · rw [if_neg sep, eq_comm, List.findSome?_eq_none_iff]
    simp [iff, sep]

theorem cfgLine_eq {readBuffer : List UInt8} (same : cString readBuffer = line) :
    cfgLine readBuffer = keyValue line := by
  unfold cfgLine keyValue
  rw [same]
  by_cases empty : line = []
  · subst empty
    rfl
  · simp only [empty, if_false]
    change (if (cfgBufferHandle line).head? = some 35 ∨ cfgBufferHandle line = [] then none
      else cfgParseHandle (cfgBufferHandle line)) = if (cfgBufferHandle line).head? = some 35
        then none else _
    by_cases comment : (cfgBufferHandle line).head? = some 35
    · simp [comment]
    · by_cases blank : cfgBufferHandle line = []
      · rw [if_pos (.inr blank), if_neg comment, ← cfgParseHandle_eq]
        change none = cfgParseHandle (cfgBufferHandle line)
        rw [blank]
        rfl
      · simp only [comment, blank, or_self, if_false]
        exact cfgParseHandle_eq (cfgBufferHandle line)

end Handlers

/-! ## The lines of a text -/

section Lines

variable {text line rest : List UInt8} {lines : List (List UInt8)} {n : Nat}

def joined (lines : List (List UInt8)) : List UInt8 := lines.flatMap (· ++ crLf)

/-- Each of the lines is whole, and there is no further one. -/
structure Split (text : List UInt8) (lines : List (List UInt8)) (rest : List UInt8) :
    Prop where
  text : text = joined lines ++ rest
  line : ∀ line ∈ lines, Line line
  stops : firstLine rest = none

theorem splitLines_split (enough : text.length ≤ n) :
    Split text (splitLines n text).1 (splitLines n text).2 := by
  induction n generalizing text with
  | zero =>
      obtain rfl : text = [] := List.length_eq_zero_iff.mp (Nat.le_zero.mp enough)
      exact ⟨rfl, by simp [splitLines], rfl⟩
  | succ n ih =>
      cases first : firstLine text with
      | none =>
          simp only [splitLines, first]
          exact ⟨by simp [joined], by simp, first⟩
      | some line =>
          obtain ⟨whole, more, rfl⟩ := firstLine_iff.mp first
          have dropped : (line ++ 13 :: 10 :: more).drop (line.length + 2) = more := by
            rw [List.drop_append]
            simp
          simp only [splitLines, first, dropped]
          have rest := @ih more (by
            simp only [List.length_append, List.length_cons] at enough
            omega)
          refine ⟨?_, ?_, rest.stops⟩
          · conv_lhs => rw [rest.text]
            simp [joined, crLf]
          · simpa using ⟨whole, rest.line⟩

theorem split_cfgLines (text : List UInt8) : Split text (cfgLines text) (cfgRest text) :=
  splitLines_split (Nat.le_refl _)

theorem Split.firstLine (split : Split text (line :: lines) rest) :
    firstLine text = some line ∧ Split (text.drop (line.length + 2)) lines rest := by
  have whole := split.line line (by simp)
  have here : text = line ++ 13 :: 10 :: (joined lines ++ rest) := by
    simp [split.text, joined, crLf]
  have dropped : text.drop (line.length + 2) = joined lines ++ rest := by
    rw [here, List.drop_append]
    simp
  exact ⟨firstLine_iff.mpr ⟨whole, _, here⟩,
    ⟨dropped, fun l member => split.line l (by simp [member]), split.stops⟩⟩

theorem Split.nil (split : Split text [] rest) : text = rest ∧ Hif.firstLine text = none := by
  have same : text = rest := by simpa [joined] using split.text
  exact ⟨same, same ▸ split.stops⟩

theorem Split.unique {other : List (List UInt8)} {last : List UInt8}
    (split : Split text lines rest) (also : Split text other last) :
    lines = other ∧ rest = last := by
  induction lines generalizing text other with
  | nil =>
      obtain ⟨same, none⟩ := split.nil
      cases other with
      | nil => exact ⟨rfl, same.symm.trans also.nil.1⟩
      | cons line other =>
          obtain ⟨first, -⟩ := also.firstLine
          simp [none] at first
  | cons line lines ih =>
      obtain ⟨first, behind⟩ := split.firstLine
      cases other with
      | nil =>
          obtain ⟨-, none⟩ := also.nil
          simp [first] at none
      | cons line' other =>
          obtain ⟨first', behind'⟩ := also.firstLine
          obtain rfl : line = line' := by simpa [first] using first'
          obtain ⟨rfl, rfl⟩ := ih behind behind'
          exact ⟨rfl, rfl⟩

end Lines

/-! ## The window -/

section Window

variable {lines : List (List UInt8)} {line rest more : List UInt8} {e : Nat}

/-- What the buffer holds when the lines have been read and `rest` follows. -/
def buffered (lines : List (List UInt8)) (rest : List UInt8) : List UInt8 :=
  (List.range 64).map (leftover lines.reverse rest) ++ [0]

theorem getElem?_window {i : Nat} (inside : i < 64) :
    (window lines rest)[i]? =
      some (if i < rest.length then rest.getD i 0 else leftover lines.reverse rest i) := by
  simp [window, inside]

theorem getElem?_buffered {i : Nat} (inside : i < 64) :
    (buffered lines rest)[i]? = some (leftover lines.reverse rest i) := by
  simp [buffered, List.getElem?_append, inside]

theorem length_buffered : (buffered lines rest).length = 65 := by
  simp [buffered]

/-- The text that is read covers the bytes left. -/
theorem window_eq :
    rest.take 64 ++ (buffered lines rest).drop (min 64 rest.length) =
      window lines rest ++ [0] := by
  apply List.ext_getElem?
  intro i
  have length : (rest.take 64).length = min 64 rest.length := List.length_take
  rcases Nat.lt_trichotomy i 64 with inside | rfl | outside
  · have shows : i < (window lines rest).length := by simpa [window] using inside
    rw [@List.getElem?_append_left _ (window lines rest) [0] i shows, getElem?_window inside]
    by_cases shown : i < rest.length
    · rw [if_pos shown, List.getElem?_append_left (by omega),
        List.getElem?_take_of_lt inside, List.getD_eq_getElem?_getD,
        List.getElem?_eq_getElem shown]
      rfl
    · have place : min 64 rest.length + (i - min 64 rest.length) = i := by omega
      rw [if_neg shown, List.getElem?_append_right (by omega), List.getElem?_drop, length,
        place, getElem?_buffered inside]
  · have place : min 64 rest.length + (64 - min 64 rest.length) = 64 := by omega
    rw [List.getElem?_append_right (by omega), List.getElem?_drop, length, place]
    simp [buffered, window]
  · rw [List.getElem?_eq_none (by simp [length_buffered]; omega),
      List.getElem?_eq_none (by simp [window]; omega)]

theorem take_window : (window lines rest).take (min 64 rest.length) = rest.take 64 := by
  have whole := congrArg (List.take (min 64 rest.length)) (@window_eq lines rest)
  have length : (rest.take 64).length = min 64 rest.length := List.length_take
  have small : min 64 rest.length ≤ (window lines rest).length := by
    simp only [window, List.length_map, List.length_range]
    omega
  rw [List.take_append_of_le_length (by omega), List.take_append_of_le_length small,
    List.take_of_length_le (by omega)] at whole
  exact whole.symm

/-- Behind a line, its end has been cleared. -/
theorem cleared_window (short : line.length ≤ 62) :
    ((window lines (line ++ 13 :: 10 :: more) ++ [0]).set line.length 0).set
        (line.length + 1) 0 = buffered (lines ++ [line]) more := by
  have text : line ++ crLf ++ more = line ++ 13 :: 10 :: more := by simp [crLf]
  apply List.ext_getElem?
  intro i
  rcases Nat.lt_trichotomy i 64 with inside | rfl | outside
  · rw [getElem?_buffered inside, List.reverse_append, List.reverse_singleton,
      List.singleton_append, leftover, text, List.getElem?_set, List.getElem?_set]
    by_cases second : line.length + 1 = i
    · subst second
      simp [window]
      omega
    · by_cases first : line.length = i
      · subst first
        simp [window]
        omega
      · rw [if_neg second, if_neg first,
          List.getElem?_append_left (by simpa [window] using inside), getElem?_window inside]
        simp [Ne.symm second, Ne.symm first]
  · rw [List.getElem?_set_ne (by omega), List.getElem?_set_ne (by omega)]
    simp [buffered, window]
  · rw [List.getElem?_eq_none (by simp [window]; omega),
      List.getElem?_eq_none (by simp [length_buffered]; omega)]

end Window

/-! ## One line -/

section Reading

variable {wide : Bool} {file : CfgContent} {lines : List (List UInt8)} {line rest : List UInt8}
  {s : CfgParse} {e fuel : Nat}

theorem chunk_add (content : Int → UInt8) (offset : Int) (m n : Nat) :
    chunk content offset (m + n) = chunk content offset m ++ chunk content (offset + m) n := by
  simp [chunk, List.range_add, Int.add_assoc]

@[simp] theorem length_chunk (content : Int → UInt8) (offset : Int) (n : Nat) :
    (chunk content offset n).length = n := by
  simp [chunk]

/-- The lines have been read, and `rest` is to be read. -/
structure At (file : CfgContent) (lines : List (List UInt8)) (rest : List UInt8)
    (s : CfgParse) : Prop where
  text : file.text = joined lines ++ rest
  pos : s.pos = (joined lines).length
  buffer : s.readBuffer = buffered lines rest
  calls : s.calls = lines.filterMap keyValue
  inside : ∀ part ∈ s.reads, 0 ≤ part.1 ∧ part.1 + part.2 ≤ file.text.length

theorem cfgStart_at (file : CfgContent) : At file [] file.text cfgStart where
  text := rfl
  pos := rfl
  buffer := rfl
  calls := rfl
  inside := by simp [cfgStart]

theorem At.size (here : At file lines rest s) :
    file.size = (joined lines).length + rest.length := by
  have length := congrArg List.length here.text
  simpa [CfgContent.text] using length

theorem At.chunk (here : At file lines rest s) :
    chunk file.byte s.pos (min 64 rest.length) = rest.take 64 := by
  have split := here.text
  rw [CfgContent.text, here.size, chunk_add] at split
  have behind := (List.append_inj split (by simp)).2
  rw [Int.zero_add, ← here.pos] at behind
  have parts := chunk_add file.byte s.pos (min 64 rest.length) (rest.length - min 64 rest.length)
  rw [Nat.add_sub_cancel' (Nat.min_le_right _ _), behind] at parts
  conv_rhs => rw [parts]
  by_cases short : rest.length ≤ 64
  · have none : rest.length - min 64 rest.length = 0 := by omega
    rw [none, List.take_of_length_le]
    · simp [Hif.chunk]
    · rw [List.length_append, length_chunk, length_chunk]
      omega
  · rw [List.take_left' (by simp; omega)]

theorem At.atEnd (here : At file lines rest s) :
    atEnd wide s.pos file.size = decide (rest = []) := by
  have size := here.size
  have small := file.allocated
  have none : rest = [] ↔ rest.length = 0 := List.length_eq_zero_iff.symm
  rw [Hif.atEnd, here.pos]
  cases wide with
  | false =>
      simp only [Bool.false_eq_true, if_false, decide_eq_decide, none]
      omega
  | true =>
      simp only [if_true, decide_eq_decide, none]
      omega

/-- Behind the read that shows the window. -/
def shown (s : CfgParse) (lines : List (List UInt8)) (rest : List UInt8) : CfgParse :=
  { s with
    readBuffer := window lines rest ++ [0]
    reads := s.reads ++ [(s.pos, min 64 rest.length)] }

/-- Behind a line that ends at `e` of the window. -/
def cleared (s : CfgParse) (lines : List (List UInt8)) (rest : List UInt8) (e : Nat) :
    CfgParse :=
  { shown s lines rest with
    readBuffer := ((window lines rest ++ [0]).set e 0).set (e + 1) 0
    pos := s.pos + (min 64 rest.length : Nat) -
      (((min 64 rest.length : Nat) : Int) - (e + 2)) % 2 ^ 32 }

theorem At.read (wide : Bool) (here : At file lines rest s) (some : rest ≠ []) :
    cfgReadLine wide file s =
      match eolAt (window lines rest) with
      | .some e => ((e : Int) + 2, cleared s lines rest e)
      | none => (-1, shown s lines rest) := by
  have size := here.size
  have length : (if s.pos + 64 > file.size then (file.size - s.pos).toNat else 64) =
      min 64 rest.length := by
    rw [here.pos]
    split_ifs <;> omega
  have buffer : Hif.chunk file.byte s.pos (min 64 rest.length) ++
      s.readBuffer.drop (min 64 rest.length) = window lines rest ++ [0] := by
    rw [here.chunk, here.buffer, window_eq]
  unfold cfgReadLine
  simp only [here.atEnd, some, decide_false, Bool.false_eq_true, if_false, length, buffer,
    eolAt_snoc_zero]
  cases eolAt (window lines rest) with
  | none => rfl
  | some e => rfl

theorem At.inside_read (here : At file lines rest s) :
    ∀ part ∈ s.reads ++ [(s.pos, min 64 rest.length)],
      0 ≤ part.1 ∧ part.1 + part.2 ≤ file.text.length := by
  simp only [List.mem_append, List.mem_singleton]
  rintro part (earlier | rfl)
  · exact here.inside part earlier
  · have all := congrArg List.length here.text
    rw [List.length_append] at all
    simp only [here.pos]
    omega

theorem filterMap_singleton (line : List UInt8) :
    [line].filterMap keyValue = (keyValue line).toList := by
  cases call : keyValue line <;> simp [call]

/-- A line that the window shows is read as it is. -/
theorem At.takes (wide : Bool) (here : At file lines rest s)
    (first : firstLine rest = some line) : ∃ s',
      (∀ fuel, cfgLoop wide file (fuel + 1) s = cfgLoop wide file fuel s') ∧
      At file (lines ++ [line]) (rest.drop (line.length + 2)) s' := by
  obtain ⟨whole, more, rfl⟩ := firstLine_iff.mp first
  have dropped : (line ++ 13 :: 10 :: more).drop (line.length + 2) = more := by
    rw [List.drop_append]
    simp
  have ends : eolAt (window lines (line ++ 13 :: 10 :: more)) = some line.length := by
    rw [← List.take_append_drop (min 64 (line ++ 13 :: 10 :: more).length) (window lines _),
      take_window, take_line whole.short, List.append_assoc]
    exact eolAt_line whole.noNul whole.noEol _
  have string : cString (cleared s lines (line ++ 13 :: 10 :: more) line.length).readBuffer =
      line := by
    have zero := ends
    rw [← eolAt_snoc_zero] at zero
    rw [cleared, cString_cleared zero, ← List.take_append_drop
      (min 64 (line ++ 13 :: 10 :: more).length) (window lines _),
      take_window, take_line whole.short]
    simp
  have length : (line ++ 13 :: 10 :: more).length = line.length + 2 + more.length := by
    simp only [List.length_append, List.length_cons]
    omega
  have pos : (cleared s lines (line ++ 13 :: 10 :: more) line.length).pos =
      s.pos + (line.length + 2 : Nat) := by
    have short := whole.short
    simp only [cleared, length]
    omega
  refine ⟨{ cleared s lines (line ++ 13 :: 10 :: more) line.length with
    calls := s.calls ++ (keyValue line).toList }, ?_, ?_⟩
  · intro fuel
    have more : (line.length : Int) + 2 > 0 := by omega
    simp only [cfgLoop, here.read wide (List.append_ne_nil_of_right_ne_nil _ (by simp)), ends, more,
      if_true, cfgLine_eq string]
    rfl
  · rw [dropped]
    exact {
      text := by simp [here.text, joined, crLf]
      pos := by
        rw [pos, here.pos]
        simp [joined, crLf]
      buffer := cleared_window whole.short
      calls := by
        simp only [here.calls, List.filterMap_append, filterMap_singleton]
      inside := here.inside_read }

end Reading

/-! ## The end of the file -/

section Ending

variable {wide : Bool} {file : CfgContent} {lines later : List (List UInt8)}
  {line text rest last : List UInt8} {s r : CfgParse} {e fuel : Nat}

/-- The loop takes the lines of the text one by one. -/
theorem At.takes_all (wide : Bool) (here : At file lines rest s)
    (split : Split rest later last) : ∃ s',
      (∀ fuel, cfgLoop wide file (fuel + later.length) s = cfgLoop wide file fuel s') ∧
      At file (lines ++ later) last s' := by
  induction later generalizing lines rest s with
  | nil =>
      obtain ⟨rfl, -⟩ := split.nil
      exact ⟨s, fun fuel => rfl, by simpa using here⟩
  | cons line later ih =>
      obtain ⟨first, behind⟩ := split.firstLine
      obtain ⟨s', turn, there⟩ := here.takes wide first
      obtain ⟨s'', turns, there⟩ := ih there behind
      refine ⟨s'', fun fuel => ?_, by simpa using there⟩
      rw [List.length_cons, ← Nat.add_assoc, turn, turns]

theorem cfgLoop_more (ends : cfgLoop wide file fuel s = some r) (n : Nat) :
    cfgLoop wide file (fuel + n) s = some r := by
  induction fuel generalizing s with
  | zero => simp [cfgLoop] at ends
  | succ fuel ih =>
      rw [Nat.add_right_comm]
      unfold cfgLoop at ends ⊢
      dsimp only at ends ⊢
      split_ifs at ends ⊢ with goes
      · exact ih ends
      · exact ends

theorem cfgReadLine_reads (s : CfgParse) : s.reads ⊆ (cfgReadLine wide file s).2.reads := by
  unfold cfgReadLine
  dsimp only
  split_ifs <;> (try split) <;> simp

/-- What has been read stays among the reads. -/
theorem cfgLoop_reads (ends : cfgLoop wide file fuel s = some r) :
    (cfgReadLine wide file s).2.reads ⊆ r.reads := by
  induction fuel generalizing s with
  | zero => simp [cfgLoop] at ends
  | succ fuel ih =>
      unfold cfgLoop at ends
      dsimp only at ends
      split_ifs at ends with goes
      · exact fun part member => ih ends (cfgReadLine_reads _ member)
      · obtain rfl := Option.some.inj ends
        exact fun part member => member

/-- A last line without its end shows up to the end that an earlier line has left. -/
theorem last_line_longer (stops : firstLine rest = none)
    (ends : eolAt (window lines rest) = some e) : min 64 rest.length < e + 2 ∧ e ≤ 62 := by
  obtain ⟨line, more, same, rfl, noNul, noEol⟩ := eolAt_some ends
  have length : line.length + 2 + more.length = 64 := by
    have length := congrArg List.length same
    simp only [window, List.length_map, List.length_range, List.length_append,
      List.length_cons] at length
    omega
  refine ⟨?_, by omega⟩
  by_contra whole
  have front := @take_window lines rest
  have two : min 64 rest.length - line.length =
      (min 64 rest.length - line.length - 2) + 2 := by omega
  rw [same, List.take_append, List.take_of_length_le (by omega), two] at front
  have none : eolAt (rest.take 64) = none := by simpa [firstLine] using stops
  rw [← front, List.take_succ_cons, List.take_succ_cons, eolAt_line noNul noEol] at none
  cases none

theorem At.stops (here : At file lines rest s)
    (ended : rest = [] ∨ eolAt (window lines rest) = none) :
    ∃ r, (∀ fuel, cfgLoop wide file (fuel + 1) s = some r) ∧ r.calls = s.calls ∧
      ∀ part ∈ r.reads, 0 ≤ part.1 ∧ part.1 + part.2 ≤ file.text.length := by
  by_cases empty : rest = []
  · have read : cfgReadLine wide file s = (0, s) := by
      rw [cfgReadLine, here.atEnd, empty]
      rfl
    exact ⟨s, fun fuel => by simp [cfgLoop, read], rfl, here.inside⟩
  · have none := ended.resolve_left empty
    have read := here.read wide empty
    rw [none] at read
    exact ⟨shown s lines rest, fun fuel => by simp [cfgLoop, read], rfl, here.inside_read⟩

theorem At.past (wide : Bool) (here : At file lines rest s) (some : rest ≠ [])
    (stops : firstLine rest = none) (ends : eolAt (window lines rest) = .some e) :
    ∃ s', (∀ fuel, cfgLoop wide file (fuel + 1) s = cfgLoop wide file fuel s') ∧
      s'.calls = s.calls ++ (keyValue ((window lines rest).take e)).toList ∧
      -2 ^ 32 ≤ s'.pos ∧ s'.pos < 0 ∧
      ∀ part ∈ s'.reads, 0 ≤ part.1 ∧ part.1 + part.2 ≤ file.text.length := by
  obtain ⟨longer, short⟩ := last_line_longer stops ends
  have read := here.read wide some
  rw [ends] at read
  have string : cString (cleared s lines rest e).readBuffer = (window lines rest).take e := by
    have zero := ends
    rw [← eolAt_snoc_zero] at zero
    rw [cleared, cString_cleared zero, List.take_append_of_le_length]
    simp only [window, List.length_map, List.length_range]
    omega
  have size := here.size
  have small := file.allocated
  have pos : (cleared s lines rest e).pos = s.pos + (e + 2) - 2 ^ 32 := by
    simp only [cleared]
    omega
  refine ⟨{ cleared s lines rest e with
    calls := s.calls ++ (keyValue ((window lines rest).take e)).toList }, ?_, rfl, ?_, ?_,
    here.inside_read⟩
  · intro fuel
    have more : (e : Int) + 2 > 0 := by omega
    simp only [cfgLoop, read, more, if_true, cfgLine_eq string]
    rfl
  · simp only [pos, here.pos]
    omega
  · simp only [pos, here.pos]
    omega

theorem cfgLoop_wide (low : -2 ^ 32 ≤ s.pos) (below : s.pos < 0) (fuel : Nat) :
    cfgLoop true file (fuel + 1) s = some s := by
  have small := file.allocated
  have ended : atEnd true s.pos file.size = true := by
    simp only [atEnd, if_true, decide_eq_true_eq]
    omega
  simp [cfgLoop, cfgReadLine, ended]

theorem cfgLoop_in_front (below : s.pos < 0) (ends : cfgLoop false file fuel s = some r) :
    ∃ part ∈ r.reads, part.1 < 0 := by
  have within : atEnd false s.pos file.size = false := by
    simp only [atEnd, Bool.false_eq_true, if_false, decide_eq_false_iff_not]
    omega
  refine ⟨(s.pos, if s.pos + 64 > file.size then (file.size - s.pos).toNat else 64),
    cfgLoop_reads ends ?_, below⟩
  unfold cfgReadLine
  simp only [within, Bool.false_eq_true, if_false]
  split <;> simp

end Ending

/-! ## The whole file -/

section Whole

variable {wide : Bool} {file : CfgContent} {lines : List (List UInt8)} {text last : List UInt8}
  {s r : CfgParse} {fuel : Nat}

theorem split_of_lines (same : text = joined lines ++ last) (whole : ∀ line ∈ lines, Line line)
    (ending : Line last) : Split text lines last where
  text := same
  line := whole
  stops := by
    rw [Option.eq_none_iff_forall_ne_some]
    intro line first
    obtain ⟨-, more, rfl⟩ := firstLine_iff.mp first
    exact ending.noEol ⟨line, more, by simp [crLf]⟩

/-- What the handlers have been called with decides. -/
theorem parsed_iff
    (calls : r.calls = (cfgLines text ++ (lastLine text).toList).filterMap keyValue)
    (inside : ∀ part ∈ r.reads, 0 ≤ part.1 ∧ part.1 + part.2 ≤ text.length)
    (straight : wide = false → lastLine text = none) :
    Parsed text r ↔ Readable wide text := by
  have split := split_cfgLines text
  have exact_iff : r.calls = (cfgLines text ++ [cfgRest text]).filterMap keyValue ↔
      (lastLine text).bind keyValue = keyValue (cfgRest text) := by
    rw [calls, List.filterMap_append, List.filterMap_append, List.append_cancel_left_eq,
      filterMap_singleton]
    cases lastLine text with
    | none => cases keyValue (cfgRest text) <;> simp
    | some line =>
        rw [Option.toList_some, filterMap_singleton, Option.bind_some]
        cases keyValue line <;> cases keyValue (cfgRest text) <;> simp
  constructor
  · intro parsed
    refine ⟨?_, straight, fun ending => ?_⟩
    · intro line member call here
      exact parsed.fields call (calls ▸ List.mem_filterMap.mpr ⟨line, member, here⟩)
    · exact exact_iff.mp (parsed.exact _ _ split.text split.line ending)
  · intro readable
    refine ⟨inside, ?_, ?_⟩
    · intro call member
      rw [calls, List.mem_filterMap] at member
      obtain ⟨line, member, here⟩ := member
      exact readable.fields line member call here
    · intro lines last same whole ending
      obtain ⟨rfl, rfl⟩ := (split_of_lines same whole ending).unique split
      exact exact_iff.mpr (readable.last ending)

/-- The whole of the loop, from its first line on. -/
theorem cfgLoop_whole (wide : Bool) (file : CfgContent) :
    (∃ r, (∀ fuel, cfgLoop wide file (fuel + 2 + (cfgLines file.text).length) cfgStart =
        some r) ∧
      r.calls = (cfgLines file.text ++ (lastLine file.text).toList).filterMap keyValue ∧
      (wide = false → lastLine file.text = none) ∧
      ∀ part ∈ r.reads, 0 ≤ part.1 ∧ part.1 + part.2 ≤ file.text.length) ∨
    (wide = false ∧ lastLine file.text ≠ none ∧
      ∀ fuel r, cfgLoop wide file fuel cfgStart = some r → ∃ part ∈ r.reads, part.1 < 0) := by
  have split := split_cfgLines file.text
  obtain ⟨s, turns, here⟩ := (cfgStart_at file).takes_all wide split
  rw [List.nil_append] at here
  by_cases ended : cfgRest file.text = [] ∨ eolAt (lastWindow file.text) = none
  · have none : lastLine file.text = none := by
      rcases ended with empty | none
      · simp [lastLine, empty]
      · simp [lastLine, none]
    obtain ⟨r, ends, calls, inside⟩ := here.stops ended
    refine .inl ⟨r, fun fuel => ?_, ?_, fun _ => none, inside⟩
    · rw [turns, ends]
    · simp [calls, here.calls, none]
  · rw [not_or] at ended
    obtain ⟨some, ends⟩ := ended
    obtain ⟨e, ends⟩ := Option.ne_none_iff_exists'.mp ends
    obtain ⟨s', turn, calls, low, below, inside⟩ := here.past wide some split.stops ends
    have last : lastLine file.text = .some ((lastWindow file.text).take e) := by
      simp [lastLine, some, ends]
    cases wide with
    | true =>
        refine .inl ⟨s', fun fuel => ?_, ?_, by simp, inside⟩
        · rw [turns, turn, cfgLoop_wide low below]
        · rw [calls, here.calls, last, List.filterMap_append, Option.toList_some,
            filterMap_singleton]
          rfl
    | false =>
        refine .inr ⟨rfl, by simp [last], fun fuel r ends => ?_⟩
        have longer := cfgLoop_more ends (1 + (cfgLines file.text).length)
        rw [← Nat.add_assoc, turns, turn] at longer
        exact cfgLoop_in_front below longer

theorem wfCfgFileParse_iff {ok : CfgParse → Prop} :
    (∃ fuel ret s, wfCfgFileParse wide file fuel = some (ret, s) ∧ ok s) ↔
      ∃ fuel s, cfgLoop wide file fuel cfgStart = some s ∧ ok s := by
  unfold wfCfgFileParse
  by_cases empty : file.size = 0
  · have turn : ∀ fuel, cfgLoop wide file (fuel + 1) cfgStart = some cfgStart := by
      intro fuel
      have ended : atEnd wide cfgStart.pos file.size = true := by
        rw [empty]
        cases wide <;> rfl
      simp [cfgLoop, cfgReadLine, ended]
    simp only [empty, if_true]
    constructor
    · rintro ⟨-, ret, s, same, holds⟩
      obtain ⟨-, rfl⟩ : -1 = ret ∧ cfgStart = s := by simpa using same
      exact ⟨1, cfgStart, turn 0, holds⟩
    · rintro ⟨fuel, s, ends, holds⟩
      cases fuel with
      | zero => simp [cfgLoop] at ends
      | succ fuel =>
          obtain rfl : cfgStart = s := by simpa [turn] using ends
          exact ⟨0, -1, cfgStart, rfl, holds⟩
  · simp only [empty, if_false, Option.map_eq_some_iff]
    constructor
    · rintro ⟨fuel, ret, s, ⟨s, ends, same⟩, holds⟩
      obtain ⟨-, rfl⟩ : 0 = ret ∧ s = _ := by simpa using same
      exact ⟨fuel, s, ends, holds⟩
    · rintro ⟨fuel, s, ends, holds⟩
      exact ⟨fuel, 0, s, ⟨s, ends, rfl⟩, holds⟩

/-- The file is parsed to its end, inside it, with one call for each line that sets something,
exactly when no SSID is too long and what is left behind the last whole line reads as it
stands. -/
theorem cfg_file_parse_iff (wide : Bool) (file : CfgContent) :
    (∃ fuel ret s, wfCfgFileParse wide file fuel = some (ret, s) ∧ Parsed file.text s) ↔
      Readable wide file.text := by
  rw [wfCfgFileParse_iff]
  rcases cfgLoop_whole wide file with ⟨r, ends, calls, straight, inside⟩ | ⟨rfl, some, front⟩
  · rw [← parsed_iff calls inside straight]
    constructor
    · rintro ⟨fuel, s, done, parsed⟩
      have longer := cfgLoop_more done (2 + (cfgLines file.text).length)
      rw [← Nat.add_assoc, ends] at longer
      exact Option.some.inj longer ▸ parsed
    · exact fun parsed => ⟨_, r, ends 0, parsed⟩
  · constructor
    · rintro ⟨fuel, s, done, parsed⟩
      obtain ⟨part, member, below⟩ := front fuel s done
      have := (parsed.inside part member).1
      omega
    · exact fun readable => absurd (readable.straight rfl) some

/-- A file of one line, without an end of the line. -/
def oneSetting : CfgContent where
  byte i := (bytesOf "bw=20M").getD i.toNat 0
  size := 6
  allocated := by decide

theorem cfg_last_line_lost : ¬ ∃ fuel ret s,
    wfCfgFileParse true oneSetting fuel = some (ret, s) ∧ Parsed oneSetting.text s := by
  rw [wfCfgFileParse_iff]
  rintro ⟨fuel, s, ends, parsed⟩
  have turn : (cfgLoop true oneSetting 1 cfgStart).map CfgParse.calls = some [] := by decide
  obtain ⟨r, once, calls⟩ := Option.map_eq_some_iff.mp turn
  have more := cfgLoop_more ends 1
  rw [Nat.add_comm, cfgLoop_more once fuel] at more
  obtain rfl := Option.some.inj more
  have exact := parsed.exact [] (bytesOf "bw=20M") (by decide) (by simp)
    ⟨by decide, by decide, by decide⟩
  rw [calls] at exact
  exact absurd exact (by decide)

end Whole

end Smartchip.Hif
