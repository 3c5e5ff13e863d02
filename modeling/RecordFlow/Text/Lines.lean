/-
# Lines of a stream of bytes

A stream is cut into lines at its line feeds before anything is known about its characters. A
carriage return just before a line feed belongs to the line break. Each line is decoded on its own,
so bytes that are no text spoil only their own line.
-/

namespace RecordFlow.Text

/-- A line and, if a line feed ended it, the bytes behind that. -/
def splitLine : List UInt8 → List UInt8 × Option (List UInt8)
  | [] => ([], none)
  | b :: rest =>
      if b = 0x0A then ([], some rest)
      else
        let more := splitLine rest
        (b :: more.1, more.2)

/-- What follows a line feed is shorter than the stream. -/
theorem splitLine_length_lt {bytes line rest : List UInt8}
    (h : splitLine bytes = (line, some rest)) :
    rest.length < bytes.length := by
  induction bytes generalizing line with
  | nil => simp [splitLine] at h
  | cons b tail ih =>
      rw [splitLine] at h
      split at h
      · cases h
        simp
      · have hmore : splitLine tail = ((splitLine tail).1, some rest) := by
          have hrest := congrArg Prod.snd h
          exact Prod.ext rfl hrest
        have hlt := ih hmore
        rw [List.length_cons]
        omega

/-- A line without the carriage return at its end. -/
def dropReturn (line : List UInt8) : List UInt8 :=
  if line.getLast? = some 0x0D then line.dropLast else line

/-- The lines of a stream. What follows the last line feed is a line unless it is empty. -/
def byteLines (bytes : List UInt8) : List (List UInt8) :=
  match h : splitLine bytes with
  | (line, some rest) =>
      have := splitLine_length_lt h
      dropReturn line :: byteLines rest
  | ([], none) => []
  | (line, none) => [line]
termination_by bytes.length

/-- A line of text without the line break that ends it. -/
def withoutBreak (line : List Char) : List Char :=
  match line.reverse with
  | '\n' :: '\r' :: back => back.reverse
  | '\n' :: back => back.reverse
  | _ => line

/-- The text that bytes encode, if they encode one. -/
def decode? (bytes : List UInt8) : Option String := String.fromUTF8? ⟨bytes.toArray⟩

/-- The bytes that encode a text. -/
def encode (text : String) : List UInt8 := text.toUTF8.data.toList

/-- The lines of a stream as texts, where they are texts. -/
def lines? (bytes : List UInt8) : List (Option String) := (byteLines bytes).map decode?

end RecordFlow.Text
