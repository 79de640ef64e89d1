import Mathlib

/-!
# Frames on the wire

`transport/sse.ts` cuts what it reads into frames at blank lines, and a frame into lines that
name its id, its event and its data.
-/

namespace AgentStudio.Widget

/-- What `trim` takes off. -/
def isSpace (c : Char) : Bool :=
  let n := c.toNat
  n == 32 || 9 ≤ n && n ≤ 13 || n == 0xA0 || n == 0x1680 || 0x2000 ≤ n && n ≤ 0x200A ||
    n == 0x2028 || n == 0x2029 || n == 0x202F || n == 0x205F || n == 0x3000 || n == 0xFEFF

abbrev Text := List Char

def trimStart (text : Text) : Text := text.dropWhile isSpace

def trim (text : Text) : Text := (trimStart (trimStart text).reverse).reverse

/-- `split(/\r?\n\r?\n/)`, after what is read of the first part. -/
def splitBlank : Text → Text → List Text
  | part, '\r' :: '\n' :: '\r' :: '\n' :: rest => part :: splitBlank [] rest
  | part, '\r' :: '\n' :: '\n' :: rest => part :: splitBlank [] rest
  | part, '\n' :: '\r' :: '\n' :: rest => part :: splitBlank [] rest
  | part, '\n' :: '\n' :: rest => part :: splitBlank [] rest
  | part, c :: rest => splitBlank (part ++ [c]) rest
  | part, [] => [part]

/-- `split(/\r?\n/)`, after what is read of the first line. -/
def splitLines : Text → Text → List Text
  | line, '\r' :: '\n' :: rest => line :: splitLines [] rest
  | line, '\n' :: rest => line :: splitLines [] rest
  | line, c :: rest => splitLines (line ++ [c]) rest
  | line, [] => [line]

/-- The lines of a frame that count. -/
structure Frame where
  id : Option String := none
  event : String := ""
  data : List String := []
  deriving DecidableEq, Repr

/-- What comes after the name of a field. -/
def field (name : String) (line : Text) : Option Text := line.dropPrefix? name.toList

def readLine (frame : Frame) (rawLine : Text) : Frame :=
  let line := trim rawLine
  match field "id:" line with
  | some id => { frame with id := some (String.ofList (trim id)) }
  | none =>
    match field "event:" line with
    | some event => { frame with event := String.ofList (trim event) }
    | none =>
      match field "data:" line with
      | some data => { frame with data := frame.data ++ [String.ofList (trimStart data)] }
      | none => frame

/-- The loop over the lines of a frame; the last id and the last event count. -/
def parseFrame (text : Text) : Frame := (splitLines [] text).foldl readLine {}

/-- One read: the frames that are whole now, and what is left in the buffer. -/
def readChunk (buffer chunk : Text) : List Frame × Text :=
  let parts := splitBlank [] (buffer ++ chunk)
  (parts.dropLast.map parseFrame, parts.getLast?.getD [])

/-- The loop over the reads: all frames that come, and what is left at the end. -/
def readChunks : Text → List Text → List Frame × Text
  | buffer, [] => ([], buffer)
  | buffer, chunk :: chunks =>
    let (frames, buffer) := readChunk buffer chunk
    let (more, rest) := readChunks buffer chunks
    (frames ++ more, rest)

end AgentStudio.Widget
