import Mathlib.Algebra.GroupWithZero.Nat
import Mathlib.Data.List.Basic

/-
  How the clients read the event stream: the lines they are
  handed, what they gather of them, and the events they yield.
  A line is a list of characters, without its terminator.

  Main declarations:
    * `Line`
    * `Go.EventStream`, `Go.EventStream.next`, `Go.events`
    * `Python.parseSse`
-/

------------------------------------------------------------
-- The Go Client
------------------------------------------------------------

namespace IcpHandler

namespace Model

namespace ClientEvents

abbrev Line := List Char

/- The bytes of a line in UTF-8. -/
def byteLength (line : Line) : Nat :=
  (line.map Char.utf8Size).sum

/- A value without a leading space, if it has one. -/
def stripSpace : Line → Line
  | ' ' :: value => value
  | value => value

namespace Go

/- `Data` is nil for everything but a JSON object. -/
structure SseEvent (D : Type) where
  id : Line
  typ : Line
  data : Option D
  raw : Line
  deriving DecidableEq

/- What is kept between two calls of `Next`. -/
structure Accumulating where
  id : Line := []
  typ : Line := []
  data : List Line := []
  deriving DecidableEq

/- `lines` are those the scanner has not handed out yet. -/
structure EventStream (D : Type) extends Accumulating where
  lines : List Line
  cur : SseEvent D
  err : Option String := none
  closed : Bool := false

/- `sc.Buffer(make([]byte, 64*1024), 1024*1024)` -/
def maxTokenSize : Nat := 1024 * 1024

/-
  `bufio.Scanner` stops with `ErrTooLong` at a line that does
  not fit into the buffer together with its line feed.
-/
def tooLong (line : Line) : Bool :=
  maxTokenSize ≤ byteLength line

/- `strings.IndexByte(line, ':')` -/
def indexColon (line : Line) : Option Nat :=
  line.findIdx? (· == ':')

/- `field: value` or `field` (empty value). -/
def splitField (line : Line) : Line × Line :=
  match indexColon line with
  | none => (line, [])
  | some idx => (line.take idx, line.drop (idx + 1))

/- The `switch` on the field name. -/
def Accumulating.set
    (acc : Accumulating)
    (line : Line) : Accumulating :=
  let (field, value) := splitField line
  let value := stripSpace value
  if field = "id".toList then { acc with id := value }
  else if field = "event".toList then { acc with typ := value }
  else if field = "data".toList then
    { acc with data := acc.data ++ [value] }
  else acc

variable {D : Type}

/- What `json.Unmarshal` leaves in `data`. -/
variable (unmarshal : Line → Option D)

/- The event that has been accumulated. -/
def Accumulating.event
    (acc : Accumulating) : SseEvent D :=
  let raw := List.intercalate ['\n'] acc.data
  { id := acc.id
    typ := acc.typ
    data := if raw ≠ [] then unmarshal raw else none
    raw := raw }

/- The loop of `Next`, over the lines the scanner has left. -/
def EventStream.nextFrom :
    List Line → EventStream D → Bool × EventStream D
  | [], stream => (false, { stream with lines := [] })
  | line :: rest, stream =>
      if tooLong line then
        (false,
          { stream with
            lines := rest
            err := some
              ("read event stream: bufio.Scanner: " ++
                "token too long") })
      else if line = [] then
        if stream.id ≠ [] ∨ stream.typ ≠ [] ∨
            0 < stream.data.length then
          (true,
            { toAccumulating := {}
              lines := rest
              cur := stream.toAccumulating.event unmarshal
              err := stream.err
              closed := stream.closed })
        else nextFrom rest stream
      else if line.head? = some ':' then nextFrom rest stream
      else
        nextFrom rest
          { stream with
            toAccumulating := stream.toAccumulating.set line }

/- `Next` -/
def EventStream.next
    (stream : EventStream D) : Bool × EventStream D :=
  if stream.closed then (false, stream)
  else nextFrom unmarshal stream.lines stream

/- `for stream.Next() { … stream.Event() … }` -/
def EventStream.drain :
    Nat → EventStream D → List (SseEvent D)
  | 0, _ => []
  | fuel + 1, stream =>
      match stream.next unmarshal with
      | (true, stream') => stream'.cur :: drain fuel stream'
      | (false, _) => []

/- `Client.Events`, once the connection is open. -/
def EventStream.opened (lines : List Line) : EventStream D :=
  { lines := lines, cur := ⟨[], [], none, []⟩ }

/- The events of a stream. Each takes at least one line. -/
def events (lines : List Line) : List (SseEvent D) :=
  (EventStream.opened lines).drain unmarshal
    (lines.length + 1)

end Go

end ClientEvents

end Model

end IcpHandler

------------------------------------------------------------
-- The Python Client
------------------------------------------------------------

namespace IcpHandler

namespace Model

namespace ClientEvents

namespace Python

structure SseEvent (D : Type) where
  id : Option Line
  type : Option Line
  data : Option D
  raw : Line
  deriving DecidableEq

/- The local variables of the generator. -/
structure Gathered where
  eventId : Option Line := none
  eventType : Option Line := none
  dataParts : List Line := []
  deriving DecidableEq

/- `str.partition` -/
def partition
    (sep : Char)
    (text : Line) : Line × Line × Line :=
  match text.dropWhile (· ≠ sep) with
  | [] => (text, [], [])
  | found :: rest =>
      (text.takeWhile (· ≠ sep), [found], rest)

/- One line that is neither blank nor a comment. -/
def Gathered.set
    (gathered : Gathered)
    (line : Line) : Gathered :=
  let (fieldName, sep, value) := partition ':' line
  let (fieldName, value) :=
    if sep = [] then (line, []) else (fieldName, value)
  let value := stripSpace value
  if fieldName = "id".toList then
    { gathered with eventId := some value }
  else if fieldName = "event".toList then
    { gathered with eventType := some value }
  else if fieldName = "data".toList then
    { gathered with dataParts := gathered.dataParts ++ [value] }
  else gathered

variable {D : Type}

/- `json.loads`, if it gives a `dict`. -/
variable (loads : Line → Option D)

/- The event that has been gathered. -/
def Gathered.event (gathered : Gathered) : SseEvent D :=
  let raw := List.intercalate ['\n'] gathered.dataParts
  { id := gathered.eventId
    type := gathered.eventType
    data := if raw ≠ [] then loads raw else none
    raw := raw }

/- `_parse_sse`: the events that the generator yields. -/
def parseFrom : Gathered → List Line → List (SseEvent D)
  | _, [] => []
  | gathered, line :: rest =>
      if line = [] then
        if gathered.dataParts ≠ [] ∨
            gathered.eventType.isSome ∨
            gathered.eventId.isSome then
          gathered.event loads :: parseFrom {} rest
        else parseFrom {} rest
      else if line.head? = some ':' then parseFrom gathered rest
      else parseFrom (gathered.set line) rest

def parseSse (lines : List Line) : List (SseEvent D) :=
  parseFrom loads {} lines

end Python

end ClientEvents

end Model

end IcpHandler
