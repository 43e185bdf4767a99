/-
# Pirewall.Lib.EventSource -- what a browser reads off a stream of server-sent events

A stream is lines of text. A blank line ends a message, a line that starts with a colon says nothing, and any other
line is a field with a value: `event` names the message and each `data` adds a line to it. `Source.feed` is the reader,
character by character; `Source.feed_message` and `Source.feed_comment` are what it makes of the two kinds of blocks
that a server writes.

Nothing here names the program.
-/
import Mathlib.Data.List.Basic
import Mathlib.Tactic.Common

namespace Pirewall.Lib

/-- A message: the name of its event, and its data. -/
structure Message where
  event : List Char
  data : List Char
  deriving DecidableEq

/-- The reader: the line so far, whether it follows a carriage return, and what the lines before it have set. -/
structure Source where
  line : List Char
  afterReturn : Bool
  event : List Char
  data : Option (List Char)
  received : List Message
  deriving DecidableEq

namespace Source

/-- Between two messages. -/
def idle (received : List Message) : Source := ⟨[], false, [], none, received⟩

/-- The name of a field and its value: what is behind the first colon, without one space in front. -/
def splitField (line : List Char) : List Char × List Char :=
  let value := (line.dropWhile (· ≠ ':')).tail
  (line.takeWhile (· ≠ ':'), if value.head? = some ' ' then value.tail else value)

def eventField : List Char := ['e', 'v', 'e', 'n', 't']

def dataField : List Char := ['d', 'a', 't', 'a']

/-- One more field. Of those that do not tell what a message is, none counts here. -/
def setField (s : Source) (field value : List Char) : Source :=
  if field = eventField then { s with event := value }
  else if field = dataField then { s with data := some (s.data.elim value (· ++ '\n' :: value)) }
  else s

/-- A blank line: there is a message if there is data. -/
def dispatch (s : Source) : Source :=
  let named := if s.event = [] then "message".toList else s.event
  { s with event := [], data := none, received := s.received ++ (s.data.map (Message.mk named)).toList }

/-- The end of a line. -/
def endLine (s : Source) : Source :=
  let cleared := { s with line := [] }
  if s.line = [] then cleared.dispatch
  else if s.line.head? = some ':' then cleared
  else cleared.setField (splitField s.line).1 (splitField s.line).2

/-- One more character. A line ends at a newline, at a carriage return, or at both. -/
def feed (s : Source) (c : Char) : Source :=
  if c = '\n' then if s.afterReturn then { s with afterReturn := false } else s.endLine
  else if c = '\r' then { s.endLine with afterReturn := true }
  else { s with line := s.line ++ [c], afterReturn := false }

def feedAll (s : Source) (text : List Char) : Source := text.foldl feed s

theorem feedAll_append (s : Source) (first rest : List Char) :
    s.feedAll (first ++ rest) = (s.feedAll first).feedAll rest := List.foldl_append

/-- What a stream is read as. -/
def read (text : List Char) : List Message := ((idle []).feedAll text).received

/-- No line ends in the text. -/
def OneLine (text : List Char) : Prop := ∀ c ∈ text, c ≠ '\n' ∧ c ≠ '\r'

/-- Of a given text this is found out by looking. -/
theorem oneLine_of_all {text : List Char} (h : text.all (fun c => decide (c ≠ '\n' ∧ c ≠ '\r')) = true) :
    OneLine text :=
  fun c hc => of_decide_eq_true (List.all_eq_true.mp h c hc)

theorem OneLine.append {first rest : List Char} (h : OneLine first) (h' : OneLine rest) : OneLine (first ++ rest) :=
  fun c hc => (List.mem_append.mp hc).elim (h c) (h' c)

/-- A piece of one line only makes the line longer. -/
theorem feedAll_piece (s : Source) (hplain : s.afterReturn = false) {piece : List Char} (h : OneLine piece) :
    s.feedAll piece = { s with line := s.line ++ piece } := by
  induction piece generalizing s with
  | nil => rw [List.append_nil]; rfl
  | cons c piece ih =>
    obtain ⟨hnewline, hreturn⟩ := h c List.mem_cons_self
    have hfeed : s.feed c = { s with line := s.line ++ [c] } := by
      rw [feed, if_neg hnewline, if_neg hreturn, hplain]
    show (s.feed c).feedAll piece = _
    rw [hfeed, ih { s with line := s.line ++ [c] } hplain fun d hd => h d (List.mem_cons_of_mem c hd),
      List.append_assoc, List.singleton_append]

/-- A whole line, from its start. -/
theorem feedAll_line (s : Source) (hplain : s.afterReturn = false) (hstart : s.line = []) {line : List Char}
    (h : OneLine line) : s.feedAll (line ++ ['\n']) = { s with line := line }.endLine := by
  rw [feedAll_append, feedAll_piece s hplain h, hstart, List.nil_append]
  show feed { s with line := line } '\n' = _
  rw [feed, if_pos rfl, if_neg (by rw [hplain]; exact Bool.false_ne_true)]

/-- A field is read as it is written, with one space behind the colon. -/
theorem splitField_written {field value : List Char} (h : ':' ∉ field) :
    splitField (field ++ ':' :: ' ' :: value) = (field, value) := by
  have hfield : ∀ c ∈ field, decide (c ≠ ':') = true := fun c hc => decide_eq_true (ne_of_mem_of_not_mem hc h)
  have htake : (field ++ ':' :: ' ' :: value).takeWhile (· ≠ ':') = field := by
    rw [List.takeWhile_append_of_pos hfield]
    simp
  have hdrop : (field ++ ':' :: ' ' :: value).dropWhile (· ≠ ':') = ':' :: ' ' :: value := by
    rw [List.dropWhile_append_of_pos hfield]
    simp
  rw [splitField, htake, hdrop]
  rfl

/-- A line that is a field. -/
theorem feedAll_field (s : Source) (hplain : s.afterReturn = false) (hstart : s.line = []) {field value : List Char}
    (hne : field ≠ []) (hcolon : ':' ∉ field) (hfield : OneLine field) (hvalue : OneLine value) :
    s.feedAll (field ++ ':' :: ' ' :: value ++ ['\n']) = s.setField field value := by
  have hline : OneLine (field ++ ':' :: ' ' :: value) := by
    refine hfield.append fun c hc => ?_
    rcases List.mem_cons.mp hc with rfl | hc
    · decide
    · rcases List.mem_cons.mp hc with rfl | hc
      · decide
      · exact hvalue c hc
  rw [feedAll_line s hplain hstart hline]
  obtain ⟨c, rest, rfl⟩ := List.exists_cons_of_ne_nil hne
  have hc : c ≠ ':' := fun heq => hcolon (heq ▸ List.mem_cons_self)
  have hsome : c :: rest ++ ':' :: ' ' :: value ≠ [] := List.cons_ne_nil _ _
  have hhead : ¬(c :: rest ++ ':' :: ' ' :: value).head? = some ':' := fun heq => hc (Option.some.inj heq)
  obtain ⟨line, afterReturn, event, data, received⟩ := s
  obtain rfl : line = [] := hstart
  unfold endLine
  dsimp only
  rw [if_neg hsome, if_neg hhead, splitField_written hcolon]

/-- The block that tells a message: its event, its data and a blank line. -/
def messageText (event data : List Char) : List Char :=
  eventField ++ ':' :: ' ' :: event ++ ['\n'] ++ (dataField ++ ':' :: ' ' :: data ++ ['\n']) ++ ['\n']

/-- The block that says nothing. -/
def commentText (text : List Char) : List Char := ':' :: text ++ ['\n'] ++ ['\n']

/-- A message is received as it was written. -/
theorem feed_message (received : List Message) {event data : List Char} (hne : event ≠ []) (hevent : OneLine event)
    (hdata : OneLine data) :
    (idle received).feedAll (messageText event data) = idle (received ++ [⟨event, data⟩]) := by
  have hnamed : (idle received).feedAll (eventField ++ ':' :: ' ' :: event ++ ['\n']) =
      { idle received with event := event } :=
    feedAll_field _ rfl rfl (by decide) (by decide) (oneLine_of_all (by decide)) hevent
  have hfilled : { idle received with event := event }.feedAll (dataField ++ ':' :: ' ' :: data ++ ['\n']) =
      { idle received with event := event, data := some data } :=
    feedAll_field _ rfl rfl (by decide) (by decide) (oneLine_of_all (by decide)) hdata
  rw [messageText, feedAll_append, feedAll_append, hnamed, hfilled]
  show dispatch { idle received with event := event, data := some data } = _
  rw [dispatch, if_neg hne]
  rfl

/-- A comment is not received. -/
theorem feed_comment (received : List Message) {text : List Char} (h : OneLine text) :
    (idle received).feedAll (commentText text) = idle received := by
  have hline : OneLine (':' :: text) := by
    intro c hc
    rcases List.mem_cons.mp hc with rfl | hc
    · decide
    · exact h c hc
  rw [commentText, feedAll_append, feedAll_line _ rfl rfl hline]
  show dispatch (idle received) = idle received
  exact congrArg (Source.mk [] false [] none) (List.append_nil received)

end Source

end Pirewall.Lib
