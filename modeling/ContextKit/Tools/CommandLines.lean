import ContextKit.Text.Segments
import ContextKit.Text.Utf8
import ContextKit.Transition.Run
import ContextKit.Types.NanoXml

/-!
# Command lines of the tools

`context-provide` and `context-listen` read commands with the same code.  What is read is put into a
buffer; the buffer is decoded as a whole, and as many of its units are taken for the line as there
are bytes before the newline.  A line with characters beyond ASCII has fewer units than bytes, so
that the newline and some of what is behind it are taken as well: `commandsOf_taken_iff` says when
this makes no difference.

A command of `context-listen` may run an event loop, in which `onActivated` is called again.  The
calls are a stack here, and the innermost one goes on.

## Main results

* `CommandInput.accounts_step`: what a step, other than a nested call, makes of the commands
  interpreted;
* `CommandInput.framed_iff`: the commands are those of the complete lines if and only if every line
  is harmless.
-/

namespace ContextKit
open Segments Transition Utf8

/-- A `QString`, by its units. -/
abbrev QString := List ℕ

/-- `QChar::isSpace`; half a character is no space. -/
def isSpaceUnit (u : ℕ) : Bool := isSpace (Char.ofNat u)

def newline : UInt8 := 10

def semicolon : ℕ := 0x3B

def byteOrderMark : List UInt8 := [0xEF, 0xBB, 0xBF]

/-- `QString::fromUtf8` on `constData()`, which ends at the first NUL. -/
def fromUtf8 (bytes : List UInt8) : QString :=
  let s := bytes.takeWhile (· ≠ 0)
  decode (if byteOrderMark <+: s then s.drop 3 else s)

/-- `split(";")`, with each command trimmed. -/
def commandsOf (line : QString) : List QString := segments isSpaceUnit semicolon line

/-- The text of an ASCII name. -/
def name (s : String) : QString := s.toList.map Char.toNat

/-- The two tools. -/
inductive Tool
  | contextProvide
  | contextListen
  deriving DecidableEq

/-- Whether `interpret` may run an event loop: `context-listen` does for `waitforsubscription`, or
any beginning of it that is not one of a command before it. -/
def Tool.runsEventLoop : Tool → QString → Bool
  | contextProvide, _ => false
  | contextListen, command =>
    let commandName := (command.splitOn 0x20).headD []
    !commandName.isPrefixOf (name "new") && !commandName.isPrefixOf (name "delete") &&
      !commandName.isPrefixOf (name "subscribe") &&
      commandName.isPrefixOf (name "waitforsubscription")

/-- Where a call of `onActivated` is: in its first loop; in its second loop, before a line; within a
line with the newline at `nextSeparator`, before the next of the commands or in `interpret`. -/
inductive Activation
  | reading
  | handling
  | line (nextSeparator : ℕ) (commands : List QString)
  | interpreting (nextSeparator : ℕ) (command : QString) (commands : List QString)
  deriving DecidableEq

/-- What is still to be read and what has been read; the buffer; the commands interpreted; and the
calls of `onActivated`, the innermost first. -/
structure CommandInput where
  unread : List UInt8
  received : List UInt8
  commandBuffer : List UInt8
  interpreted : List QString
  active : List Activation
  deriving DecidableEq

namespace CommandInput

/-- `onActivated` is called; `read()` returns so many bytes, or no more; a line is taken from the
buffer; `interpret` is called for the next command, and returns; the line is removed; and
`onActivated` returns. -/
inductive Event
  | activated
  | read (readSize : ℕ)
  | endOfInput
  | nextLine
  | interpret
  | interpreted
  | removeLine
  | finished

def step (tool : Tool) (s : CommandInput) : Event → Option CommandInput
  | .activated =>
    match s.active with
    | [] => some { s with active := [.reading] }
    | .interpreting n command commands :: as =>
      if tool.runsEventLoop command then
        some { s with active := .reading :: .interpreting n command commands :: as }
      else none
    | _ => none
  | .read readSize =>
    match s.active with
    | .reading :: _ =>
      if 0 < readSize ∧ readSize ≤ s.unread.length then
        some
          { s with
            unread := s.unread.drop readSize
            received := s.received ++ s.unread.take readSize
            commandBuffer := s.commandBuffer ++ s.unread.take readSize }
      else none
    | _ => none
  | .endOfInput =>
    match s.active with
    | .reading :: as => some { s with active := .handling :: as }
    | _ => none
  | .nextLine =>
    match s.active with
    | .handling :: as =>
      if newline ∈ s.commandBuffer then
        let nextSeparator := s.commandBuffer.idxOf newline
        let commands := commandsOf ((fromUtf8 s.commandBuffer).take nextSeparator)
        some { s with active := .line nextSeparator commands :: as }
      else none
    | _ => none
  | .interpret =>
    match s.active with
    | .line n (command :: commands) :: as =>
      some
        { s with
          interpreted := s.interpreted ++ [command]
          active := .interpreting n command commands :: as }
    | _ => none
  | .interpreted =>
    match s.active with
    | .interpreting n _ commands :: as => some { s with active := .line n commands :: as }
    | _ => none
  | .removeLine =>
    match s.active with
    | .line n [] :: as =>
      some { s with commandBuffer := s.commandBuffer.drop (n + 1), active := .handling :: as }
    | _ => none
  | .finished =>
    match s.active with
    | .handling :: as => if newline ∈ s.commandBuffer then none else some { s with active := as }
    | _ => none

/-- The tool starts, and this is what it will read. -/
def start (stream : List UInt8) : CommandInput where
  unread := stream
  received := []
  commandBuffer := []
  interpreted := []
  active := []

end CommandInput

/-! ### What is to be interpreted -/

/-- The lines that end with a newline. -/
def completeLines (bytes : List UInt8) : List (List UInt8) := (bytes.splitOn newline).dropLast

/-- What is behind the last newline. -/
def remainder (bytes : List UInt8) : List UInt8 := (bytes.splitOn newline).getLastD []

/-- The commands of lines, each line decoded by itself. -/
def commandsOfLines (lines : List (List UInt8)) : List QString :=
  lines.flatMap fun line => commandsOf (fromUtf8 line)

namespace CommandInput

/-- The commands interpreted are those of the complete lines received, and the rest is in the
buffer. -/
def Framed (s : CommandInput) : Prop :=
  s.interpreted = commandsOfLines (completeLines s.received) ∧
    s.commandBuffer = remainder s.received

/-- `onActivated` is called while a command is being interpreted. -/
def Nested (s : CommandInput) : Event → Prop
  | .activated => s.active ≠ []
  | _ => False

/-- The first line in the buffer, and what is behind it. -/
def firstLine (buffer : List UInt8) : List UInt8 := buffer.takeWhile (· ≠ newline)

def behindLine (buffer : List UInt8) : List UInt8 := buffer.drop ((firstLine buffer).length + 1)

/-- Of what is behind the first line only space is taken with it: as many units as the line has
bytes more than units, one of which is the newline. -/
def Harmless (buffer : List UInt8) : Prop :=
  ∀ u ∈ (decode (behindLine buffer)).take
    ((firstLine buffer).length - (fromUtf8 (firstLine buffer)).length - 1), isSpaceUnit u = true

/-- The lines taken are harmless. -/
def TakesHarmless (s : CommandInput) : Event → Prop
  | .nextLine => Harmless s.commandBuffer
  | _ => True

end CommandInput

/-! ### Decoding a line with what is behind it -/

theorem isSpaceUnit_semicolon : isSpaceUnit semicolon = false := by decide

theorem newline_eq : String.utf8EncodeChar '\n' = [newline] := by decide

theorem mark_eq : String.utf8EncodeChar '\uFEFF' = byteOrderMark := by decide

/-- A text without the byte order mark it may begin with. -/
def withoutMark : List Char → List Char
  | [] => []
  | c :: s => if c = '\uFEFF' then s else c :: s

theorem mark_prefix_iff (c : Char) (bytes : List UInt8) :
    byteOrderMark <+: String.utf8EncodeChar c ++ bytes ↔ c = '\uFEFF' := by
  constructor
  · rintro ⟨x, hx⟩
    rw [← mark_eq] at hx
    exact (encode_append_inj hx).1.symm
  · rintro rfl
    rw [mark_eq]
    exact List.prefix_append ..

theorem notMem_zero {s : List Char} (hnul : '\x00' ∉ s) : (0 : UInt8) ∉ encode s :=
  fun h => hnul (mem_of_mem_encode (by decide) h)

/-- What `fromUtf8` makes of a text and of what comes after it. -/
theorem fromUtf8_append {s : List Char} {bytes : List UInt8} (hnul : '\x00' ∉ s)
    (hbytes : 0 ∉ bytes) (hmark : s = [] → ¬ byteOrderMark <+: bytes) :
    fromUtf8 (encode s ++ bytes) = decode (encode (withoutMark s) ++ bytes) := by
  have hall : (encode s ++ bytes).takeWhile (· ≠ 0) = encode s ++ bytes := by
    rw [List.takeWhile_eq_self_iff]
    intro b hb
    have hne : b ≠ 0 := by
      rintro rfl
      exact (List.mem_append.1 hb).elim (notMem_zero hnul) hbytes
    simpa using hne
  rw [fromUtf8, hall]
  cases s with
  | nil => simp [withoutMark, hmark rfl]
  | cons c s =>
    rw [encode_cons, List.append_assoc]
    simp only [mark_prefix_iff, withoutMark]
    split_ifs with hc
    · subst hc
      rw [mark_eq]
      rfl
    · rw [encode_cons, List.append_assoc]

theorem fromUtf8_encode {s : List Char} (hnul : '\x00' ∉ s) :
    fromUtf8 (encode s) = decode (encode (withoutMark s)) := by
  have happend : fromUtf8 (encode s ++ []) = decode (encode (withoutMark s) ++ []) :=
    fromUtf8_append hnul (by simp) fun _ => by decide
  simpa using happend

theorem length_fromUtf8_le {s : List Char} (hnul : '\x00' ∉ s) :
    (fromUtf8 (encode s)).length ≤ (encode s).length := by
  rw [fromUtf8_encode hnul]
  apply (length_decode_encode_le _).trans
  cases s with
  | nil => rfl
  | cons c s =>
    rw [withoutMark]
    split_ifs
    · simp
    · rfl

/-- The line is decoded as it would be alone, and what is behind it as well. -/
theorem fromUtf8_line {l : List Char} {rest : List UInt8} (hnul : '\x00' ∉ l) (hrest : 0 ∉ rest) :
    fromUtf8 (encode l ++ newline :: rest) = fromUtf8 (encode l) ++ 10 :: decode rest := by
  have hzero : (0 : UInt8) ∉ newline :: rest := by
    rw [List.mem_cons, not_or]
    exact ⟨by decide, hrest⟩
  have hmark : ¬ byteOrderMark <+: newline :: rest := by
    rintro ⟨x, hx⟩
    exact absurd (List.cons.inj hx).1 (by decide)
  rw [fromUtf8_append hnul hzero fun _ => hmark, fromUtf8_encode hnul, decode_encode_append,
    decode_encode, show newline :: rest = String.utf8EncodeChar '\n' ++ rest by rw [newline_eq]; rfl,
    decode_encodeChar_append]
  rfl

/-- What is taken for the line. -/
theorem taken_eq {l : List Char} {rest : List UInt8} (hnul : '\x00' ∉ l) (hrest : 0 ∉ rest) :
    (fromUtf8 (encode l ++ newline :: rest)).take (encode l).length =
      fromUtf8 (encode l) ++
        (10 :: decode rest).take ((encode l).length - (fromUtf8 (encode l)).length) := by
  rw [fromUtf8_line hnul hrest, List.take_append, List.take_of_length_le (length_fromUtf8_le hnul)]

/-- The newline itself is space. -/
theorem space_take_iff (n : ℕ) (text : List ℕ) :
    (∀ u ∈ (10 :: text).take n, isSpaceUnit u = true) ↔
      ∀ u ∈ text.take (n - 1), isSpaceUnit u = true := by
  cases n with
  | zero => simp
  | succ n =>
    rw [List.take_succ_cons, List.forall_mem_cons, Nat.add_sub_cancel]
    exact and_iff_right (by decide)

/-- The commands taken for a line are those of the line, or else more. -/
theorem commandsOf_taken {l : List Char} {rest : List UInt8} (hnul : '\x00' ∉ l)
    (hrest : 0 ∉ rest) {space : Prop}
    (hspace : space ↔ ∀ u ∈ (decode rest).take
      ((encode l).length - (fromUtf8 (encode l)).length - 1), isSpaceUnit u = true) :
    (space → commandsOf ((fromUtf8 (encode l ++ newline :: rest)).take (encode l).length) =
      commandsOf (fromUtf8 (encode l))) ∧
    (¬ space → weight isSpaceUnit (commandsOf (fromUtf8 (encode l))) <
      weight isSpaceUnit
        (commandsOf ((fromUtf8 (encode l ++ newline :: rest)).take (encode l).length))) := by
  rw [hspace, ← space_take_iff, taken_eq hnul hrest]
  constructor
  · exact fun h => segments_append isSpaceUnit_semicolon h _
  · exact fun h => weight_segments_lt isSpaceUnit_semicolon h _

/-! ### Lines -/

/-- Lines, each with its newline. -/
def unlines (lines : List (List UInt8)) : List UInt8 := lines.flatMap fun line => line ++ [newline]

theorem splitOn_unlines {lines : List (List UInt8)} (hlines : ∀ line ∈ lines, newline ∉ line)
    {bytes : List UInt8} (hbytes : newline ∉ bytes) :
    (unlines lines ++ bytes).splitOn newline = lines ++ [bytes] := by
  induction lines with
  | nil => exact List.splitOn_eq_singleton hbytes
  | cons line lines ih =>
    rw [List.forall_mem_cons] at hlines
    have hcons : unlines (line :: lines) ++ bytes = line ++ newline :: (unlines lines ++ bytes) := by
      simp [unlines]
    rw [hcons, List.splitOn_append_cons_self, List.splitOn_eq_singleton hlines.1, ih hlines.2]
    rfl

theorem completeLines_unlines {lines : List (List UInt8)} (hlines : ∀ line ∈ lines, newline ∉ line)
    {bytes : List UInt8} (hbytes : newline ∉ bytes) :
    completeLines (unlines lines ++ bytes) = lines := by
  rw [completeLines, splitOn_unlines hlines hbytes, List.dropLast_concat]

theorem remainder_unlines {lines : List (List UInt8)} (hlines : ∀ line ∈ lines, newline ∉ line)
    {bytes : List UInt8} (hbytes : newline ∉ bytes) :
    remainder (unlines lines ++ bytes) = bytes := by
  rw [remainder, splitOn_unlines hlines hbytes, List.getLastD_concat]

theorem firstLine_append {line rest : List UInt8} (hline : newline ∉ line) :
    CommandInput.firstLine (line ++ newline :: rest) = line := by
  rw [CommandInput.firstLine, List.takeWhile_append_of_pos]
  · simp
  · intro b hb
    simpa using fun heq : b = newline => hline (heq ▸ hb)

theorem behindLine_append {line rest : List UInt8} (hline : newline ∉ line) :
    CommandInput.behindLine (line ++ newline :: rest) = rest := by
  rw [CommandInput.behindLine, firstLine_append hline]
  simp

/-! ### What a step makes of the commands -/

/-- The commands are the expected ones if `p` holds, and heavier if not. -/
def Balanced (p : Prop) (commands expected : List QString) : Prop :=
  (p → commands = expected) ∧ (¬ p → weight isSpaceUnit expected < weight isSpaceUnit commands)

theorem Balanced.append {p q : Prop} {commands expected taken due : List QString}
    (h : Balanced p commands expected) (hq : Balanced q taken due) :
    Balanced (p ∧ q) (commands ++ taken) (expected ++ due) := by
  constructor
  · rintro ⟨hp, hq'⟩
    rw [h.1 hp, hq.1 hq']
  · intro hnot
    rw [weight_append, weight_append]
    by_cases hp : p
    · have hlt := hq.2 fun hq' => hnot ⟨hp, hq'⟩
      rw [h.1 hp]
      omega
    · have hlt := h.2 hp
      have hle : weight isSpaceUnit due ≤ weight isSpaceUnit taken := by
        by_cases hq' : q
        · rw [hq.1 hq']
        · exact (hq.2 hq').le
      omega

theorem Balanced.eq_iff {p : Prop} {commands expected : List QString}
    (h : Balanced p commands expected) : commands = expected ↔ p := by
  refine ⟨fun heq => ?_, h.1⟩
  by_contra hp
  have hlt := h.2 hp
  rw [heq] at hlt
  exact lt_irrefl _ hlt

namespace CommandInput

/-- The lines handled are followed by the buffer, and the commands interpreted are theirs.  Within a
line, the line is still in the buffer and its commands are interpreted or due. -/
structure Accounts (p : Prop) (s : CommandInput) (lines : List (List UInt8)) : Prop where
  noNewline : ∀ line ∈ lines, newline ∉ line
  received : s.received = unlines lines ++ s.commandBuffer
  text : ∃ cs, '\x00' ∉ cs ∧ s.commandBuffer ++ s.unread = encode cs
  commands :
    match s.active with
    | [] => newline ∉ s.commandBuffer ∧ Balanced p s.interpreted (commandsOfLines lines)
    | [.reading] | [.handling] => Balanced p s.interpreted (commandsOfLines lines)
    | [.line n commands] | [.interpreting n _ commands] =>
      ∃ line rest, s.commandBuffer = line ++ newline :: rest ∧ newline ∉ line ∧ n = line.length ∧
        Balanced p (s.interpreted ++ commands) (commandsOfLines (lines ++ [line]))
    | _ => False

theorem accounts_start {cs : List Char} (hnul : '\x00' ∉ cs) :
    Accounts True (start (encode cs)) [] where
  noNewline := by simp
  received := rfl
  text := ⟨cs, hnul, rfl⟩
  commands := ⟨by simp [start], fun _ => rfl, fun h => absurd trivial h⟩

theorem Accounts.active_eq {p : Prop} {s : CommandInput} {lines : List (List UInt8)}
    (h : Accounts p s lines) : s.active = [] ∨ ∃ a, s.active = [a] := by
  obtain ⟨-, -, -, hcommands⟩ := h
  cases hactive : s.active with
  | nil => exact .inl rfl
  | cons a as =>
    cases as with
    | nil => exact .inr ⟨a, rfl⟩
    | cons b bs =>
      rw [hactive] at hcommands
      cases a <;> exact hcommands.elim

/-- A line at the beginning of what is in the buffer and still to come. -/
theorem exists_line {cs : List Char} (hnul : '\x00' ∉ cs) {line rest unread : List UInt8}
    (hline : newline ∉ line) (htext : (line ++ newline :: rest) ++ unread = encode cs) :
    ∃ l r, '\x00' ∉ l ∧ '\x00' ∉ r ∧ line = encode l ∧ rest ++ unread = encode r := by
  rw [List.append_assoc, List.cons_append] at htext
  obtain ⟨l, r, rfl, hl, hr⟩ := split_at newline_eq htext.symm hline
  rw [List.mem_append, List.mem_cons, not_or, not_or] at hnul
  exact ⟨l, r, hnul.1, hnul.2.2, hl, hr⟩

theorem commandsOfLines_append (lines : List (List UInt8)) (line : List UInt8) :
    commandsOfLines (lines ++ [line]) = commandsOfLines lines ++ commandsOf (fromUtf8 line) := by
  simp [commandsOfLines]

/-- Taking a line. -/
theorem accounts_nextLine {p : Prop} {s : CommandInput} {lines : List (List UInt8)}
    (hs : Accounts p s lines) (hactive : s.active = [.handling]) (hmem : newline ∈ s.commandBuffer) :
    Accounts (p ∧ Harmless s.commandBuffer)
      { s with active := [.line (s.commandBuffer.idxOf newline)
        (commandsOf ((fromUtf8 s.commandBuffer).take (s.commandBuffer.idxOf newline)))] } lines := by
  obtain ⟨hno, hreceived, htext, hcommands⟩ := hs
  rw [hactive] at hcommands
  refine ⟨hno, hreceived, htext, ?_⟩
  obtain ⟨line, rest, hbuffer, hline⟩ := List.eq_append_cons_of_mem hmem
  obtain ⟨cs, hnul, hcs⟩ := htext
  rw [hbuffer] at hcs
  obtain ⟨l, r, hl, hr, rfl, hrest⟩ := exists_line hnul hline hcs
  have hzero : (0 : UInt8) ∉ rest := by
    intro h
    apply notMem_zero hr
    rw [← hrest]
    exact List.mem_append_left _ h
  have hindex : s.commandBuffer.idxOf newline = (encode l).length := by
    rw [hbuffer, List.idxOf_append_of_notMem hline, List.idxOf_cons_self, Nat.add_zero]
  refine ⟨encode l, rest, hbuffer, hline, hindex, ?_⟩
  rw [hindex, hbuffer, commandsOfLines_append]
  apply Balanced.append hcommands
  apply commandsOf_taken hl hzero
  rw [Harmless, behindLine_append hline, firstLine_append hline]

/-- Removing it. -/
theorem accounts_removeLine {p : Prop} {s : CommandInput} {lines : List (List UInt8)} {n : ℕ}
    (hs : Accounts p s lines) (hactive : s.active = [.line n []]) :
    ∃ lines', Accounts p
      { s with commandBuffer := s.commandBuffer.drop (n + 1), active := [.handling] } lines' := by
  obtain ⟨hno, hreceived, ⟨cs, hnul, hcs⟩, hcommands⟩ := hs
  rw [hactive] at hcommands
  obtain ⟨line, rest, hbuffer, hline, rfl, hbalanced⟩ := hcommands
  have hdrop : s.commandBuffer.drop (line.length + 1) = rest := by
    simp [hbuffer]
  rw [hbuffer] at hcs
  obtain ⟨l, r, -, hr, -, hrest⟩ := exists_line hnul hline hcs
  refine ⟨lines ++ [line], ?_, ?_, ⟨r, hr, ?_⟩, ?_⟩
  · simpa [or_imp, forall_and, hline] using hno
  · rw [hreceived, hdrop, hbuffer]
    simp [unlines]
  · rw [hdrop]
    exact hrest
  · simpa using hbalanced

/-- What a call of `onActivated` does, one step after the other. -/
theorem accounts_step {tool : Tool} {p : Prop} {s t : CommandInput} {e : Event}
    {lines : List (List UInt8)} (hs : Accounts p s lines) (hnested : ¬ Nested s e)
    (h : step tool s e = some t) : ∃ lines', Accounts (p ∧ TakesHarmless s e) t lines' := by
  have hactive := hs.active_eq
  obtain ⟨unread, received, buffer, interpreted, active⟩ := s
  rcases hactive with hnil | ⟨a, hone⟩
  · obtain rfl : active = [] := hnil
    cases e with
    | activated =>
      cases h
      exact ⟨lines, hs.noNewline, hs.received, hs.text, by
        simpa [TakesHarmless] using hs.commands.2⟩
    | _ => cases h
  · obtain rfl : active = [a] := hone
    cases e with
    | activated => exact absurd (List.cons_ne_nil a []) hnested
    | read readSize =>
      cases a with
      | reading =>
        obtain ⟨-, ht⟩ := Option.ite_none_right_eq_some.1 h
        cases ht
        refine ⟨lines, hs.noNewline, ?_, ?_, by simpa [TakesHarmless] using hs.commands⟩
        · simp [show received = _ from hs.received]
        · simpa using hs.text
      | _ => cases h
    | endOfInput =>
      cases a with
      | reading =>
        cases h
        exact ⟨lines, hs.noNewline, hs.received, hs.text, by
          simpa [TakesHarmless] using hs.commands⟩
      | _ => cases h
    | nextLine =>
      cases a with
      | handling =>
        obtain ⟨hmem, ht⟩ := Option.ite_none_right_eq_some.1 h
        cases ht
        exact ⟨lines, accounts_nextLine hs rfl hmem⟩
      | _ => cases h
    | interpret =>
      cases a with
      | line n commands =>
        cases commands with
        | nil => cases h
        | cons command commands =>
          cases h
          refine ⟨lines, hs.noNewline, hs.received, hs.text, ?_⟩
          simpa [TakesHarmless] using hs.commands
      | _ => cases h
    | interpreted =>
      cases a with
      | interpreting n command commands =>
        cases h
        exact ⟨lines, hs.noNewline, hs.received, hs.text, by
          simpa [TakesHarmless] using hs.commands⟩
      | _ => cases h
    | removeLine =>
      cases a with
      | line n commands =>
        cases commands with
        | nil =>
          cases h
          simpa [TakesHarmless] using accounts_removeLine hs rfl
        | cons command commands => cases h
      | _ => cases h
    | finished =>
      cases a with
      | handling =>
        obtain ⟨hnone, ht⟩ := Option.ite_none_left_eq_some.1 h
        cases ht
        refine ⟨lines, hs.noNewline, hs.received, hs.text, hnone, ?_⟩
        simpa [TakesHarmless] using hs.commands
      | _ => cases h

theorem accounts_run {tool : Tool} {cs : List Char} (hnul : '\x00' ∉ cs) {es : List Event}
    {s : CommandInput} (h : run (step tool) (start (encode cs)) es = some s)
    (hnested : Along (step tool) (fun s e => ¬ Nested s e) (start (encode cs)) es) :
    ∃ lines, Accounts (Along (step tool) TakesHarmless (start (encode cs)) es) s lines := by
  refine run_induction (P := fun es s => ∃ lines,
    Accounts (Along (step tool) TakesHarmless (start (encode cs)) es) s lines)
    ⟨[], accounts_start hnul⟩ ?_ hnested h
  rintro es s e t hrun ⟨lines, hs⟩ hcalled ht
  have hlast : Along (step tool) TakesHarmless (start (encode cs)) (es ++ [e]) =
      (Along (step tool) TakesHarmless (start (encode cs)) es ∧ TakesHarmless s e) := by
    rw [along_append hrun]
    exact propext (and_congr_right fun _ => and_iff_left fun _ _ => trivial)
  rw [hlast]
  exact accounts_step hs hcalled ht

/-- `context-provide` runs no event loop in a command. -/
theorem not_nested_of_run {es : List Event} {s t : CommandInput}
    (h : run (step .contextProvide) s es = some t) :
    Along (step .contextProvide) (fun s e => ¬ Nested s e) s es := by
  induction es generalizing s with
  | nil => trivial
  | cons e es ih =>
    obtain ⟨u, hu, hrun⟩ := run_cons_eq_some.1 h
    refine .cons (fun hnested => ?_) hu (ih hrun)
    obtain ⟨unread, received, buffer, interpreted, active⟩ := s
    cases e with
    | activated =>
      cases active with
      | nil => exact hnested rfl
      | cons a as => cases a <;> cases hu
    | _ => exact hnested

/-- A nested call takes the line again that is being interpreted, as it is still in the buffer. -/
theorem run_nested {tool : Tool} {s : CommandInput} {n : ℕ} {command : QString}
    {commands : List QString} {as : List Activation}
    (hactive : s.active = .interpreting n command commands :: as)
    (hloop : tool.runsEventLoop command = true) (hmem : newline ∈ s.commandBuffer) :
    let nextSeparator := s.commandBuffer.idxOf newline
    let line := (fromUtf8 s.commandBuffer).take nextSeparator
    run (step tool) s [.activated, .endOfInput, .nextLine] =
      some { s with active := .line nextSeparator (commandsOf line) :: s.active } := by
  simp [run_cons, step, hactive, hloop, hmem]

/-- **The commands interpreted are those of the complete lines**, when `onActivated` has returned,
if and only if every line taken was harmless; provided that it was not called while a command was
being interpreted, as it may be in `context-listen`. -/
theorem framed_iff {tool : Tool} {cs : List Char} (hnul : '\x00' ∉ cs) {es : List Event}
    {s : CommandInput} (h : run (step tool) (start (encode cs)) es = some s) (hidle : s.active = [])
    (hnested : tool = .contextListen →
      Along (step tool) (fun s e => ¬ Nested s e) (start (encode cs)) es) :
    s.Framed ↔ Along (step tool) TakesHarmless (start (encode cs)) es := by
  have hcalls : Along (step tool) (fun s e => ¬ Nested s e) (start (encode cs)) es := by
    cases tool with
    | contextProvide => exact not_nested_of_run h
    | contextListen => exact hnested rfl
  obtain ⟨lines, hs⟩ := accounts_run hnul h hcalls
  have hcommands := hs.commands
  rw [hidle] at hcommands
  rw [Framed, hs.received, completeLines_unlines hs.noNewline hcommands.1,
    remainder_unlines hs.noNewline hcommands.1, hcommands.2.eq_iff]
  exact and_iff_left rfl

/-- Two commands in a line, the second of them a character beyond ASCII that is read in two pieces,
and the beginning of the next line. -/
theorem framed_iff_twoCommands :
    Along (step .contextProvide) TakesHarmless (start (encode "a;é\nc".toList))
      [.activated, .read 3, .read 3, .endOfInput, .nextLine, .interpret, .interpreted, .interpret,
        .interpreted, .removeLine, .finished] :=
  (framed_iff (s := ⟨[], encode "a;é\nc".toList, [0x63], [name "a", name "é"], []⟩) (by decide)
    (by decide +kernel) rfl (fun h => by cases h)).1 ⟨by decide +kernel, by decide +kernel⟩

/-- With two characters beyond ASCII in a line the first character of the next line is taken, too;
and a command that waits is interpreted once more when `onActivated` is called meanwhile. -/
theorem exists_not_framed :
    (∃ s, run (step .contextProvide) (start (encode "éé\nx\n".toList))
      [.activated, .read 7, .endOfInput, .nextLine, .interpret, .interpreted, .removeLine, .nextLine,
        .interpret, .interpreted, .removeLine, .finished] = some s ∧ s.active = [] ∧ ¬ s.Framed) ∧
    ∃ s, run (step .contextListen) (start (encode "w k\n".toList))
      [.activated, .read 4, .endOfInput, .nextLine, .interpret, .activated, .endOfInput, .nextLine,
        .interpret, .interpreted, .removeLine, .finished, .interpreted, .removeLine, .finished] =
        some s ∧ s.active = [] ∧ ¬ s.Framed := by
  constructor
  · refine ⟨⟨[], encode "éé\nx\n".toList, [], [name "éé\nx", name "x"], []⟩, by decide +kernel, rfl,
      fun h => ?_⟩
    exact absurd h.1 (by decide +kernel)
  · refine ⟨⟨[], encode "w k\n".toList, [], [name "w k", name "w k"], []⟩, by decide +kernel, rfl,
      fun h => ?_⟩
    exact absurd h.1 (by decide +kernel)

end CommandInput

end ContextKit
