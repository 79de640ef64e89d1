import AgentStudio.Ingestion.Service

/-!
# The chunkers

`_chunk_document` of `application/ingestion/service.py` with any strategy. The fixed-size chunker
advances by the chunk size less the overlap, and is given fuel; the recursive one may come to split
at nothing, which raises.
-/

namespace AgentStudio.Ingestion

inductive ChunkingStrategy where
  | fixedSize
  | sentence
  | paragraph
  | recursive
  deriving DecidableEq

/-- An end of a slice `s[i:j]`: from the end of `s` where it is negative. -/
def sliceIndex (length : Nat) (i : Int) : Nat := if i < 0 then (length + i).toNat else i.toNat

/-- `s[i:j]`. -/
def slice (s : List Char) (i j : Int) : List Char :=
  (s.take (sliceIndex s.length j)).drop (sliceIndex s.length i)

/-- The loop of `_chunk_fixed_size`; without fuel it is still running. -/
def chunkFixedSize (size overlap : Int) (content : List Char) :
    Nat → Int → Nat → Option (List Chunk)
  | 0, _, _ => none
  | fuel + 1, start, i =>
    if start < content.length then
      let stop := min (start + size) content.length
      (chunkFixedSize size overlap content fuel (start + (size - overlap)) (i + 1)).map
        ({ id := "chunk-" ++ toString i
           content := String.ofList (slice content start stop)
           startOffset := start
           endOffset := stop } :: ·)
    else some []

/-- The loop of `_chunk_by_sentence` and `_chunk_by_paragraph` over the pieces, with `current` and
`offset`; `trim` is what is done to a chunk. -/
def gather (size : Int) (sep : List Char) (trim : List Char → List Char) :
    List (List Char) → List Char → Nat → Nat → List Chunk
  | [], current, i, offset =>
    if current = [] then []
    else [{
      id := "chunk-" ++ toString i
      content := String.ofList (trim current)
      startOffset := offset
      endOffset := offset + current.length }]
  | s :: rest, current, i, offset =>
    if (current.length + s.length : Int) ≤ size then
      gather size sep trim rest (if current = [] then s else current ++ sep ++ s) i offset
    else if current = [] then gather size sep trim rest s i offset
    else {
      id := "chunk-" ++ toString i
      content := String.ofList (trim current)
      startOffset := offset
      endOffset := offset + current.length } ::
        gather size sep trim rest s (i + 1) (offset + current.length)

/-- `re.split(r"(?<=[.!?])\s+", s)`, with the piece so far in reverse. `stop` is that it ends in
`.`, `!` or `?`; `skip` is that the white space before it is being dropped. -/
def splitSentences : List Char → Bool → Bool → List Char → List (List Char)
  | [], _, _, piece => [piece.reverse]
  | c :: cs, stop, skip, piece =>
    if Py.isSpace c && skip then splitSentences cs false true piece
    else if Py.isSpace c && stop then piece.reverse :: splitSentences cs false true []
    else splitSentences cs (c ∈ ['.', '!', '?']) false (c :: piece)

/-- `s.strip()`. -/
def stripChars (s : List Char) : List Char :=
  ((s.dropWhile Py.isSpace).reverse.dropWhile Py.isSpace).reverse

/-- `_chunk_by_sentence`. -/
def chunkBySentence (size : Int) (content : List Char) : List Chunk :=
  gather size [' '] stripChars (splitSentences content false false []) [] 0 0

/-- `_chunk_by_paragraph`. -/
def chunkByParagraph (size : Int) (content : List Char) : List Chunk :=
  let paragraphs := ((split ['\n', '\n'] content 0 []).map stripChars).filter (· ≠ [])
  gather size ['\n', '\n'] id paragraphs [] 0 0

/-- `_chunk_document`, after so many steps of its loop. -/
def chunkWith (strategy : ChunkingStrategy) (config : Config) (content : String) (fuel : Nat) :
    Option (Except String (List Chunk)) :=
  if content = "" then some (.ok [])
  else
    match strategy with
    | .fixedSize =>
      (chunkFixedSize config.chunkSize config.chunkOverlap content.toList fuel 0 0).map .ok
    | .sentence => some (.ok (chunkBySentence config.chunkSize content.toList))
    | .paragraph => some (.ok (chunkByParagraph config.chunkSize content.toList))
    | .recursive => some (chunkRecursive config content)

/-- It returns a list of chunks. -/
def Returns (strategy : ChunkingStrategy) (config : Config) (content : String)
    (chunks : List Chunk) : Prop := ∃ fuel, chunkWith strategy config content fuel = some (.ok chunks)

/-! ## The fixed-size loop -/

section FixedSize
variable {size overlap : Int} {content : List Char}

variable (content) in
/-- Each round comes closer to the end, so a round for each character is enough. -/
theorem chunkFixedSize_returns (advances : overlap < size) (fuel : Nat) (start : Int) (i : Nat)
    (enough : content.length ≤ start + fuel) :
    ∃ chunks, chunkFixedSize size overlap content (fuel + 1) start i = some chunks := by
  induction fuel generalizing start i with
  | zero =>
    rw [chunkFixedSize, if_neg (by omega)]
    exact ⟨[], rfl⟩
  | succ fuel ih =>
    rw [chunkFixedSize]
    split
    · obtain ⟨rest, returned⟩ := ih (start + (size - overlap)) (i + 1) (by omega)
      rw [returned]
      exact ⟨_, rfl⟩
    · exact ⟨[], rfl⟩

/-- Without an advance the start stays before the end. -/
theorem chunkFixedSize_runs (stays : size ≤ overlap) (fuel : Nat) (start : Int) (i : Nat)
    (before : start < content.length) : chunkFixedSize size overlap content fuel start i = none := by
  induction fuel generalizing start i with
  | zero => rfl
  | succ fuel ih =>
    rw [chunkFixedSize, if_pos before]
    have next := ih (start + (size - overlap)) (i + 1) (by omega)
    simp only [next, Option.map_none]

end FixedSize

/-! ## The recursive chunker -/

/-- A text comes down to pieces of the size: it has the size, or the groups that its parts at the
first separator are joined to come down to it by the others. -/
def Fits (size : Int) : List (List Char) → List Char → Prop
  | [], text => (text.length : Int) ≤ size
  | sep :: seps, text =>
    (text.length : Int) ≤ size ∨ ∀ group ∈ pack size sep (split sep text 0 []) [], Fits size seps group

section Recursive
variable {size : Int} {sep : List Char} {seps : List (List Char)} {splits : List (List Char)}

theorem fits_of_length {text : List Char} (short : (text.length : Int) ≤ size) :
    Fits size seps text := by
  cases seps with
  | nil => exact short
  | cons sep seps => exact .inl short

theorem refine_ok (some_ : sep ≠ []) : refine size sep splits = .ok (splits.flatMap fun s =>
    if s.length ≤ size then [s] else pack size sep (split sep s 0 []) []) :=
  if_neg fun empty => some_ empty.1

/-- A pass leaves every text to come down by the separators that are left. -/
theorem fits_pass : (∀ s ∈ splits, Fits size (sep :: seps) s) ↔
    ∀ s ∈ splits.flatMap fun s =>
      if (s.length : Int) ≤ size then [s] else pack size sep (split sep s 0 []) [],
    Fits size seps s := by
  rw [List.forall_mem_flatMap]
  refine forall₂_congr fun s _ => ?_
  split
  · rename_i short
    rw [List.forall_mem_singleton]
    exact iff_of_true (.inl short) (fits_of_length short)
  · rename_i long
    exact or_iff_right long

variable (size splits) in
/-- The passes raise at the last, where a piece is still too long. -/
theorem foldlM_ok_iff (nonempty : ∀ sep ∈ seps, sep ≠ []) :
    (∃ pieces, (seps ++ [[]]).foldlM (fun splits sep => refine size sep splits) splits =
      Except.ok pieces) ↔ ∀ s ∈ splits, Fits size seps s := by
  induction seps generalizing splits with
  | nil =>
    have last : ([] ++ [[]] : List (List Char)).foldlM
        (fun splits sep => refine size sep splits) splits = refine size [] splits := by
      rw [List.nil_append, List.foldlM_cons]
      exact bind_pure _
    simp only [last, Fits]
    by_cases long : ∃ s ∈ splits, size < s.length
    · rw [refine, if_pos ⟨rfl, long⟩]
      obtain ⟨s, mem, long⟩ := long
      exact iff_of_false nofun fun short => absurd (short s mem) (by omega)
    · rw [refine, if_neg fun there => long there.2]
      refine iff_of_true ⟨_, rfl⟩ fun s mem => ?_
      by_contra over_
      exact long ⟨s, mem, by omega⟩
  | cons sep seps ih =>
    rw [List.forall_mem_cons] at nonempty
    rw [List.cons_append, List.foldlM_cons, refine_ok nonempty.1, fits_pass, ← ih _ nonempty.2]
    rfl

theorem chunkRecursive_ok_iff (config : Config) (content : String) :
    (∃ chunks, chunkRecursive config content = .ok chunks) ↔
      ∃ pieces, (config.separators.map String.toList).foldlM
        (fun splits sep => refine config.chunkSize sep splits) [content.toList] =
          .ok pieces := by
  rw [chunkRecursive, List.foldlM_map]
  cases config.separators.foldlM (fun splits sep => refine config.chunkSize sep.toList splits)
      [content.toList] with
  | error e => exact iff_of_false nofun nofun
  | ok pieces => exact iff_of_true ⟨_, rfl⟩ ⟨pieces, rfl⟩

end Recursive

/-- `separators` of `IngestionConfig`, without the empty one. -/
def defaultSeparators : List (List Char) := [['\n', '\n'], ['\n'], ['.', ' '], [' ']]

/-- With the default separators: the fixed-size chunker returns exactly if it advances, the
recursive one exactly if the text comes down to pieces of the size, and the other two always. -/
theorem chunks_iff (strategy : ChunkingStrategy) (size overlap : Int) (content : String) :
    (∃ chunks, Returns strategy { chunkSize := size, chunkOverlap := overlap } content chunks) ↔
      content = "" ∨
        (strategy = .fixedSize → overlap < size) ∧
        (strategy = .recursive → Fits size defaultSeparators content.toList) := by
  by_cases empty : content = ""
  · exact iff_of_true ⟨[], 0, if_pos empty⟩ (.inl empty)
  · simp only [Returns, chunkWith, empty, false_or]
    cases strategy with
    | fixedSize =>
      have some_ : content.toList ≠ [] := by simpa using empty
      simp only [forall_const, reduceCtorEq, false_implies, and_true]
      constructor
      · rintro ⟨chunks, fuel, returned⟩
        by_contra stays
        rw [chunkFixedSize_runs (by omega) fuel 0 0 (by
          exact_mod_cast List.length_pos_of_ne_nil some_)] at returned
        cases returned
      · intro advances
        obtain ⟨chunks, returned⟩ :=
          chunkFixedSize_returns content.toList advances content.toList.length 0 0
            (by omega)
        exact ⟨chunks, _, by rw [returned]; rfl⟩
    | sentence => simp
    | paragraph => simp
    | recursive =>
      simp only [reduceCtorEq, false_implies, true_and, forall_const]
      have separators : ∀ sep ∈ defaultSeparators, sep ≠ [] := by decide
      have passes := foldlM_ok_iff size [content.toList] separators
      rw [List.forall_mem_singleton] at passes
      rw [← passes]
      refine Iff.trans ?_ (chunkRecursive_ok_iff { chunkSize := size, chunkOverlap := overlap } content)
      simp

/-- A word of six characters, and chunks of five. -/
theorem long_word : ¬ ∀ (strategy : ChunkingStrategy) (size overlap : Int) (content : String),
    ∃ chunks, Returns strategy { chunkSize := size, chunkOverlap := overlap } content chunks := by
  intro all
  obtain ⟨chunks, fuel, returned⟩ := all .recursive 5 0 "abcdef"
  have raised : chunkRecursive { chunkSize := 5, chunkOverlap := 0 } "abcdef" =
      .error "empty separator" := by rfl
  cases raised.symm.trans (Option.some.inj returned)

end AgentStudio.Ingestion
