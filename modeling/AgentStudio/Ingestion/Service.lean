import AgentStudio.Py.Text

/-!
# The ingestion service

`ingest_document` of `application/ingestion/service.py` as the worker calls it, on a service
that is new for each job: no content hash is known to it and no other job is active. Documents
are chunked by the recursive strategy.
-/

namespace AgentStudio.Ingestion

/-- The configuration of `create_ingestion_service`. -/
structure Config where
  chunkSize : Int := 512
  chunkOverlap : Int := 50
  separators : List String := ["\n\n", "\n", ". ", " ", ""]
  maxDocumentSize : Nat := 10 * 1024 * 1024
  supportedFormats : List String := ["txt", "md", "pdf", "docx", "html", "json", "csv"]

structure Chunk where
  id : String
  content : String
  startOffset : Int
  endOffset : Int
  deriving DecidableEq

inductive IngestionError where
  | unsupportedFormat (format : String)
  | documentTooLarge (size maxSize : Nat)
  | failed (error source : String)
  deriving DecidableEq

/-- `s.rsplit(".", 1)[-1]`. -/
def extension (s : String) : String :=
  String.ofList ((s.toList.reverse.takeWhile (· ≠ '.')).reverse)

variable (config : Config)

/-- `_detect_format`. -/
def detectFormat (source content : String) : String :=
  let ext := if source.toList.contains '.' then Py.lower (extension source) else ""
  if ext ∈ config.supportedFormats then ext
  else if content ≠ "" ∧ (Py.strip content).toList.head? = some '\x7b' then "json"
  else if content ≠ "" ∧ (Py.strip content).toList.head? = some '<' then "html"
  else if ext = "" then "txt" else ext

/-- `s.split(sep)`, with the piece so far in reverse; what is left of a separator is skipped. -/
def split (sep : List Char) : List Char → Nat → List Char → List (List Char)
  | [], _, piece => [piece.reverse]
  | _ :: cs, skip + 1, piece => split sep cs skip piece
  | c :: cs, 0, piece =>
    if sep.isPrefixOf (c :: cs) then piece.reverse :: split sep cs (sep.length - 1) []
    else split sep cs 0 (c :: piece)

/-- The inner loop of `_chunk_recursive`, with `current`. -/
def pack (size : Int) (sep : List Char) : List (List Char) → List Char → List (List Char)
  | [], current => if current = [] then [] else [current]
  | part :: parts, current =>
    if (current.length + part.length : Int) ≤ size then
      pack size sep parts (if current = [] then part else current ++ sep ++ part)
    else if current = [] then pack size sep parts part
    else current :: pack size sep parts part

/-- One pass of the outer loop; `"".split` raises where a piece is to be split at nothing. -/
def refine (size : Int) (sep : List Char) (splits : List (List Char)) :
    Except String (List (List Char)) :=
  if sep = [] ∧ ∃ s ∈ splits, size < s.length then .error "empty separator"
  else .ok (splits.flatMap fun s =>
    if s.length ≤ size then [s] else pack size sep (split sep s 0 []) [])

/-- The last `n` characters, or all. -/
def tailOf (n : Nat) (s : List Char) : List Char := s.drop (s.length - n)

/-- The chunks from the `i`-th on; each repeats the end of the one before. -/
def chunkFrom (overlap : Int) (i : Nat) (start : Int) (prev : List Char) :
    List (List Char) → List Chunk
  | [] => []
  | s :: rest =>
    let s := if 0 < i ∧ 0 < overlap then tailOf overlap.toNat prev ++ s else s
    { id := "chunk-" ++ toString i
      content := String.ofList s
      startOffset := start
      endOffset := start + s.length } ::
      chunkFrom overlap (i + 1) (start + s.length - if 0 < i then overlap else 0) s rest

/-- `_chunk_recursive`. -/
def chunkRecursive (content : String) : Except String (List Chunk) := do
  let splits ← config.separators.foldlM
    (fun splits sep => refine config.chunkSize sep.toList splits) [content.toList]
  return chunkFrom config.chunkOverlap 0 0 [] splits

/-- `_chunk_document`. -/
def chunkDocument (content : String) : Except String (List Chunk) :=
  if content = "" then .ok [] else chunkRecursive config content

/-- The chunks of `ingest_document`. -/
def ingestDocument (content source : String) : Except IngestionError (List Chunk) :=
  let format := detectFormat config source content
  if format ∉ config.supportedFormats then .error (.unsupportedFormat format)
  else if config.maxDocumentSize < content.utf8ByteSize then
    .error (.documentTooLarge content.utf8ByteSize config.maxDocumentSize)
  else
    match chunkDocument config content with
    | .error e => .error (.failed e source)
    | .ok chunks => .ok chunks

end AgentStudio.Ingestion
