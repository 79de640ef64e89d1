import AgentStudio.Ingestion.Chunkers
import AgentStudio.Packing.Layout

/-!
# Where the chunks stand

The offsets of a chunk against the text that stands there. The fixed-size chunker cuts the text; the
others take it apart at its separators, put the parts together again and count the offsets on from
the length of the chunks before.

* `gather_keeps_iff`: when the chunks of sentences and paragraphs stand where they say;
* `chunks_keep`: the claim of all strategies.
-/

namespace AgentStudio.Ingestion

open Packing

/-- `paragraphs` of `_chunk_by_paragraph`. -/
def paragraphs (content : List Char) : List (List Char) :=
  ((split ['\n', '\n'] content 0 []).map stripChars).filter (· ≠ [])

/-- What a strategy does not take apart. -/
def units (strategy : ChunkingStrategy) (content : List Char) : List (List Char) :=
  match strategy with
  | .fixedSize => []
  | .sentence => splitSentences content false false []
  | .paragraph => paragraphs content
  | .recursive => split [' '] content 0 []

/-- The chunks stand where they say, are no longer than the limit unless within a unit that is longer
than the size, and miss nothing but white space. -/
structure Keeps (limit size : Int) (units : List (List Char)) (content : List Char)
    (chunks : List Chunk) : Prop where
  stands : ∀ chunk ∈ chunks, slice content chunk.startOffset chunk.endOffset = chunk.content.toList
  short : ∀ chunk ∈ chunks, (chunk.content.toList.length : Int) ≤ limit ∨
    ∃ unit ∈ units, size < unit.length ∧ chunk.content.toList <:+: unit
  covers : ∀ (i : Nat) (c : Char), content[i]? = some c → Py.isSpace c = false →
    ∃ chunk ∈ chunks, chunk.startOffset ≤ i ∧ (i : Int) < chunk.endOffset

/-- The longest a chunk may be. -/
def limit (strategy : ChunkingStrategy) (size overlap : Int) : Int :=
  if strategy = .recursive then size + overlap else size

theorem slice_cast (s : List Char) (i j : Nat) : slice s i j = (s.take j).drop i := by
  have cast (k : Nat) : sliceIndex s.length k = k := by
    rw [sliceIndex, if_neg (by omega), Int.toNat_natCast]
  rw [slice, cast, cast]

/-! ## The fixed-size chunker -/

theorem chunkFixedSize_keeps {size overlap : Int} {content : List Char} (nonneg : 0 ≤ overlap)
    (advances : overlap < size) (fuel : Nat) {start : Int} (from_ : 0 ≤ start) (i : Nat)
    {chunks : List Chunk} (returned : chunkFixedSize size overlap content fuel start i = some chunks) :
    (∀ chunk ∈ chunks, slice content chunk.startOffset chunk.endOffset = chunk.content.toList ∧
      (chunk.content.toList.length : Int) ≤ size) ∧
    ∀ k : Nat, start ≤ k → k < content.length →
      ∃ chunk ∈ chunks, chunk.startOffset ≤ k ∧ (k : Int) < chunk.endOffset := by
  induction fuel generalizing start i chunks with
  | zero => cases returned
  | succ fuel ih =>
    rw [chunkFixedSize] at returned
    split at returned
    · rename_i before
      obtain ⟨rest, next, rfl⟩ := Option.map_eq_some_iff.mp returned
      obtain ⟨stand, cover⟩ := ih (by omega) _ next
      constructor
      · rw [List.forall_mem_cons]
        refine ⟨⟨by rw [String.toList_ofList], ?_⟩, stand⟩
        obtain ⟨from', rfl⟩ := Int.eq_ofNat_of_zero_le from_
        obtain ⟨stop, is⟩ := Int.eq_ofNat_of_zero_le
          (show 0 ≤ min ((from' : Int) + size) content.length by omega)
        dsimp only
        rw [String.toList_ofList, is, slice_cast, List.length_drop, List.length_take]
        omega
      · intro k after within
        by_cases here : (k : Int) < min (start + size) content.length
        · exact ⟨_, List.mem_cons_self, after, here⟩
        · obtain ⟨chunk, mem, there⟩ := cover k (by omega) within
          exact ⟨chunk, List.mem_cons_of_mem _ mem, there⟩
    · rename_i past
      obtain rfl := Option.some.inj returned
      exact ⟨fun _ mem => absurd mem List.not_mem_nil, fun k after within => absurd within (by omega)⟩

/-! ## Gathering pieces -/

theorem stripChars_eq (s : List Char) : stripChars s = strip Py.isSpace s := rfl

/-- A chunk of `gather`. -/
def chunkAt (trim : List Char → List Char) (current : List Char) (i offset : Nat) : Chunk where
  id := "chunk-" ++ toString i
  content := String.ofList (trim current)
  startOffset := offset
  endOffset := offset + current.length

theorem chunkAt_stands {trim : List Char → List Char} {content current : List Char} {i offset : Nat} :
    (slice content (chunkAt trim current i offset).startOffset
        (chunkAt trim current i offset).endOffset =
      (chunkAt trim current i offset).content.toList) ↔
      (content.drop offset).take current.length = trim current := by
  have stop : ((offset : Int) + (current.length : Int)) = ((offset + current.length : Nat) : Int) := by
    push_cast
    rfl
  rw [chunkAt, String.toList_ofList]
  dsimp only
  rw [stop, slice_cast, List.drop_take, Nat.add_sub_cancel_left]

section
variable {size : Int} {sep : List Char} {trim : List Char → List Char}

variable (size trim) in
/-- Either all the rest is joined to what there is, or a chunk ends before a piece that does not
fit. -/
theorem gather_cases (rest : List (List Char)) {joined : List (List Char)} (some_ : joined ≠ [])
    (current_ : sep.intercalate joined ≠ []) (i offset : Nat) :
    gather size sep trim rest (sep.intercalate joined) i offset =
        [chunkAt trim (sep.intercalate (joined ++ rest)) i offset] ∨
      ∃ more s rest', rest = more ++ s :: rest' ∧
        size < (sep.intercalate (joined ++ more)).length + s.length ∧
        sep.intercalate (joined ++ more) ≠ [] ∧
        gather size sep trim rest (sep.intercalate joined) i offset =
          chunkAt trim (sep.intercalate (joined ++ more)) i offset ::
            gather size sep trim rest' s (i + 1)
              (offset + (sep.intercalate (joined ++ more)).length) := by
  induction rest generalizing joined with
  | nil =>
    left
    rw [gather, if_neg current_, List.append_nil]
    rfl
  | cons s rest ih =>
    by_cases fits : ((sep.intercalate joined).length + s.length : Int) ≤ size
    · have next : sep.intercalate (joined ++ [s]) = sep.intercalate joined ++ sep ++ s := by
        rw [intercalate_append some_ (by simp), List.intercalate_singleton]
      rw [gather, if_pos fits, if_neg current_, ← next]
      obtain all | ⟨more, s', rest', rfl, long, there, is⟩ := @ih (joined ++ [s]) (by simp)
        (by rw [next]; simp [current_])
      · left
        rw [all, List.append_assoc, List.singleton_append]
      · rw [List.append_assoc, List.singleton_append] at long there is
        exact .inr ⟨s :: more, s', rest', rfl, long, there, is⟩
    · right
      refine ⟨[], s, rest, rfl, ?_, ?_, ?_⟩
      · rw [List.append_nil]
        omega
      · rwa [List.append_nil]
      · rw [gather, if_neg fits, if_neg current_, List.append_nil]
        rfl

theorem gather_start (p : List Char) (rest : List (List Char)) (i offset : Nat) :
    gather size sep trim (p :: rest) [] i offset = gather size sep trim rest p i offset := by
  rw [gather, if_pos rfl, if_pos rfl]
  split <;> rfl

/-- What is not too long is one chunk. -/
theorem gather_joined {joined rest : List (List Char)} (some_ : joined ≠ [])
    (current_ : sep.intercalate joined ≠ []) (i offset : Nat)
    (fits : ((sep.intercalate (joined ++ rest)).length : Int) ≤ size ∨ rest = []) :
    gather size sep trim rest (sep.intercalate joined) i offset =
      [chunkAt trim (sep.intercalate (joined ++ rest)) i offset] := by
  obtain all | ⟨more, s, rest', rfl, long, -⟩ := gather_cases size trim rest
    some_ current_ i offset
  · exact all
  · obtain fits | none_ := fits
    · rw [← List.append_assoc, intercalate_append (by simp [some_]) (by simp)] at fits
      have within : s.length ≤ (sep.intercalate (s :: rest')).length := by
        cases rest' with
        | nil => simp
        | cons q rest' => simp [List.intercalate_cons_cons]
      simp only [List.length_append] at fits
      omega
    · simp at none_

end

/-- The pieces, joined as the chunker joins them, begin the text and are not to be stripped, and are
one chunk; or there is one piece that is too long, and the empty one after it. -/
def Whole (size : Int) (sep : List Char) (pieces : List (List Char)) (content : List Char) : Prop :=
  (sep.intercalate pieces <+: content ∧
    stripChars (sep.intercalate pieces) = sep.intercalate pieces ∧
    (((sep.intercalate pieces).length : Int) ≤ size ∨ pieces.length ≤ 1)) ∨
  ∃ s, pieces = [s, []] ∧ s <+: content ∧ stripChars s = s ∧ size < s.length

section
variable {size : Int} {sep lead body : List Char} {pieces : List (List Char)}

/-- A single chunk that begins the text and has all its solid characters keeps it. -/
theorem keeps_one {content current : List Char} (begins : current <+: content)
    (stripped : stripChars current = current)
    (all : solid Py.isSpace content = solid Py.isSpace current)
    (short : (current.length : Int) ≤ size ∨
      ∃ unit ∈ pieces, size < unit.length ∧ current <:+: unit) :
    Keeps size size pieces content [chunkAt stripChars current 0 0] where
  stands := by
    rw [List.forall_mem_singleton, chunkAt_stands, List.drop_zero, stripped]
    exact (List.prefix_iff_eq_take.mp begins).symm
  short := by
    rw [List.forall_mem_singleton, chunkAt, String.toList_ofList, stripped]
    exact short
  covers := by
    intro i c there solid_
    refine ⟨_, List.mem_cons_self, Int.natCast_nonneg i, ?_⟩
    obtain ⟨rest, rfl⟩ := begins
    rw [solid_append, List.append_right_eq_self, solid_eq_nil_iff] at all
    by_contra past
    have after : current.length ≤ i := by
      rw [chunkAt] at past
      dsimp only at past
      omega
    rw [List.getElem?_append_right after] at there
    have := all c (List.mem_of_getElem? there)
    rw [solid_] at this
    cases this

/-- A chunk that stands at the start is the beginning of the text, and was not stripped. -/
theorem begins_of_stands {content current : List Char} {i : Nat}
    (length_ : current.length ≤ content.length)
    (stands : slice content (chunkAt stripChars current i 0).startOffset
        (chunkAt stripChars current i 0).endOffset =
      (chunkAt stripChars current i 0).content.toList) :
    current <+: content ∧ stripChars current = current := by
  rw [chunkAt_stands, List.drop_zero] at stands
  have stripped : stripChars current = current := strip_eq_of_length Py.isSpace (by
    have taken := congrArg List.length stands
    rw [List.length_take, Nat.min_eq_left length_] at taken
    exact taken.symm)
  exact ⟨List.prefix_iff_eq_take.mpr (stands.trans stripped).symm, stripped⟩

variable (size) in
theorem gather_head (trim : List Char → List Char) (rest : List (List Char))
    {joined : List (List Char)} (some_ : joined ≠ []) (current_ : sep.intercalate joined ≠ []) (i offset : Nat) :
    ∃ current chunks, current ≠ [] ∧ gather size sep trim rest (sep.intercalate joined) i offset =
      chunkAt trim current i offset :: chunks := by
  obtain one | ⟨more, s, rest', -, -, there, is⟩ :=
    gather_cases size trim rest some_ current_ i offset
  · refine ⟨_, [], ?_, one⟩
    by_cases none_ : rest = []
    · rwa [none_, List.append_nil]
    · rw [intercalate_append some_ none_]
      simp [current_]
  · exact ⟨_, _, there, is⟩

variable (size sep) in
/-- A further chunk would stand at the white space before it. -/
theorem further_stands_not {content front gap tail s : List Char} (rest : List (List Char))
    (is : content = front ++ (gap ++ tail)) (some_ : gap ≠ []) (blanks : Blank Py.isSpace gap)
    (nonempty : s ≠ []) (i : Nat) : ∃ chunk ∈ gather size sep stripChars rest s i front.length,
    slice content chunk.startOffset chunk.endOffset ≠ chunk.content.toList := by
  have current_ : sep.intercalate [s] ≠ [] := by rwa [List.intercalate_singleton]
  obtain ⟨current, chunks, there, more⟩ := gather_head size
    stripChars rest (by simp) current_ i front.length
  rw [List.intercalate_singleton] at more
  refine ⟨_, by rw [more]; exact List.mem_cons_self, fun stands => ?_⟩
  rw [chunkAt_stands, is, List.drop_left] at stands
  obtain ⟨c, gap, rfl⟩ := List.exists_cons_of_ne_nil some_
  obtain ⟨d, current, rfl⟩ := List.exists_cons_of_ne_nil there
  have solid_ := strip_start Py.isSpace stands.symm
  rw [blanks c List.mem_cons_self] at solid_
  cases solid_

/-- With a chunk that ends before the last piece, the last piece is empty and the other is too
long. -/
theorem Keeps.ended {content s : List Char} {joined rest : List (List Char)}
    (is : content = lead ++ body) (nonneg : 0 ≤ size) (blanks : Blank Py.isSpace sep)
    (some_ : 0 < sep.length) (leads : Blank Py.isSpace lead)
    (laid : Laid Py.isSpace sep.length (joined ++ s :: rest) body) (there : joined ≠ [])
    (current_ : sep.intercalate joined ≠ [])
    (long : size < (sep.intercalate joined).length + s.length)
    (keeps : Keeps size size (joined ++ s :: rest) content
      (chunkAt stripChars (sep.intercalate joined) 0 0 ::
        gather size sep stripChars rest s 1 (0 + (sep.intercalate joined).length))) :
    ∃ p, joined = [p] ∧ s = [] ∧ rest = [] ∧ p <+: content ∧ stripChars p = p ∧ size < p.length := by
  obtain ⟨front, gap, tail, rfl, ends, gapBlanks, gapLong, solid_, length_, rest_⟩ :=
    laid.split sep there (by simp) le_rfl
  obtain ⟨begins, stripped⟩ := begins_of_stands (by
    rw [is, List.length_append, List.length_append]
    omega) (keeps.stands _ List.mem_cons_self)
  have same : sep.intercalate joined = lead ++ front := by
    refine eq_of_solid Py.isSpace begins ⟨gap ++ tail, by rw [is, List.append_assoc]⟩ ?_
      (ends.append lead) ?_
    · have left : stripChars (sep.intercalate joined) ≠ [] := by rwa [stripped]
      have ends' := strip_endsSolid Py.isSpace left
      rwa [← stripChars_eq, stripped] at ends'
    · rw [solid_append, solid_eq_nil_iff.mpr leads, List.nil_append, solid_,
        solid_intercalate blanks]
  have whole : content = sep.intercalate joined ++ (gap ++ tail) := by
    rw [is, same, List.append_assoc]
  have empty : s = [] := by
    by_contra nonempty
    obtain ⟨chunk, mem, not_⟩ := further_stands_not size sep rest whole
      (List.ne_nil_of_length_pos (by omega)) gapBlanks nonempty 1
    rw [Nat.zero_add] at keeps
    exact not_ (keeps.stands chunk (List.mem_cons_of_mem _ mem))
  subst empty
  have last : rest = [] := by
    cases rest_ with
    | last => rfl
    | cons ends => exact absurd rfl ends.ne_nil
  subst last
  have short := keeps.short _ List.mem_cons_self
  rw [chunkAt, String.toList_ofList, stripped] at short
  rw [List.length_nil] at long
  obtain short | ⟨unit, mem, big, within⟩ := short
  · omega
  · have one : joined.length ≤ 1 := by
      by_contra several
      obtain mem | mem := List.mem_append.mp mem
      · have := length_lt_intercalate some_ (by omega) mem
        have := within.length_le
        omega
      · obtain rfl := List.mem_singleton.mp mem
        rw [List.length_nil] at big
        omega
    obtain ⟨p, rfl⟩ := List.length_eq_one_iff.mp
      (le_antisymm one (List.length_pos_of_ne_nil there))
    rw [List.intercalate_singleton] at begins stripped long
    exact ⟨p, rfl, rfl, rfl, begins, stripped, by omega⟩

theorem gather_keeps_iff {content : List Char} (is : content = lead ++ body) (nonneg : 0 ≤ size)
    (blanks : Blank Py.isSpace sep) (some_ : 0 < sep.length) (leads : Blank Py.isSpace lead)
    (laid : Laid Py.isSpace sep.length pieces body) (start : pieces ≠ [[]]) :
    Keeps size size pieces content (gather size sep stripChars pieces [] 0 0) ↔
      Whole size sep pieces content := by
  have all : solid Py.isSpace content = solid Py.isSpace (sep.intercalate pieces) := by
    rw [is, solid_append, solid_eq_nil_iff.mpr leads, List.nil_append, laid.solid_eq,
      solid_intercalate blanks]
  have shorter := laid.length_le sep le_rfl
  have bodyLength : body.length ≤ content.length := by
    rw [is, List.length_append]
    omega
  obtain ⟨p, rest, rfl⟩ := List.exists_cons_of_ne_nil laid.ne_nil
  have nonempty : p ≠ [] := by
    cases laid with
    | last => exact fun none_ => start (by rw [none_])
    | cons ends => exact ends.ne_nil
  have begun : gather size sep stripChars (p :: rest) [] 0 0 =
      gather size sep stripChars rest (sep.intercalate [p]) 0 0 := by
    rw [gather_start, List.intercalate_singleton]
  have some' : sep.intercalate [p] ≠ [] := by rwa [List.intercalate_singleton]
  rw [begun]
  constructor
  · intro keeps
    obtain one | ⟨more, s, rest', rfl, long, there, two⟩ := gather_cases size
      stripChars rest (by simp) some' 0 0
    · rw [one, List.singleton_append] at keeps
      obtain ⟨begins, stripped⟩ := begins_of_stands (shorter.trans bodyLength)
        (keeps.stands _ (List.mem_singleton_self _))
      refine .inl ⟨begins, stripped, ?_⟩
      have short := keeps.short _ (List.mem_singleton_self _)
      rw [chunkAt, String.toList_ofList, stripped] at short
      obtain short | ⟨unit, mem, -, within⟩ := short
      · exact .inl short
      · right
        by_contra several
        have := length_lt_intercalate some_ (by omega) mem
        have := within.length_le
        omega
    · rw [two] at keeps
      obtain ⟨q, one, rfl, rfl, begins, stripped, big⟩ := Keeps.ended is nonneg
        blanks some_ leads (by simpa using laid) (by simp) there long (by simpa using keeps)
      obtain ⟨rfl, rfl⟩ : p = q ∧ more = [] := by simpa using one
      exact .inr ⟨p, rfl, begins, stripped, big⟩
  · rintro (⟨begins, stripped, short⟩ | ⟨s, two, begins, stripped, big⟩)
    · have fits : ((sep.intercalate ([p] ++ rest)).length : Int) ≤ size ∨ rest = [] :=
        short.imp_right fun one => List.length_eq_zero_iff.mp (by simpa using one)
      rw [gather_joined (by simp) some' 0 0 fits]
      refine keeps_one begins stripped all ?_
      obtain fits | rfl := fits
      · exact .inl fits
      · rw [List.append_nil, List.intercalate_singleton]
        by_cases short : (p.length : Int) ≤ size
        · exact .inl short
        · exact .inr ⟨p, List.mem_cons_self, by omega, List.infix_rfl⟩
    · obtain ⟨rfl, rfl⟩ := List.cons.inj two
      have one : gather size sep stripChars [[]] (sep.intercalate [p]) 0 0 =
          [chunkAt stripChars p 0 0] := by
        rw [List.intercalate_singleton, gather, if_neg (by simpa using big), if_neg nonempty]
        rfl
      rw [one]
      refine keeps_one begins stripped (all.trans ?_) (.inr ⟨p, List.mem_cons_self, big, List.infix_rfl⟩)
      rw [solid_intercalate blanks]
      simp [solid]

end

/-! ## Sentences -/

theorem splitSentences_laid (cs : List Char) :
    (∀ (stop : Bool) (piece : List Char),
      (stop = true → ∃ c front, piece = c :: front ∧ Py.isSpace c = false) →
      Laid Py.isSpace 1 (splitSentences cs stop false piece) (piece.reverse ++ cs)) ∧
    ∃ dropped tail, cs = dropped ++ tail ∧ Blank Py.isSpace dropped ∧
      Laid Py.isSpace 1 (splitSentences cs false true []) tail := by
  have mark {c : Char} (stop : c ∈ ['.', '!', '?']) : Py.isSpace c = false := by
    simp only [List.mem_cons, List.not_mem_nil, or_false] at stop
    rcases stop with rfl | rfl | rfl <;> decide
  induction cs with
  | nil => exact ⟨fun stop piece _ => .last _ [] nofun, [], [], rfl, nofun, .last [] [] nofun⟩
  | cons c cs ih =>
    obtain ⟨ih, dropped, tail, rfl, blanks, skipped⟩ := ih
    have goes (piece : List Char) : Laid Py.isSpace 1
        (splitSentences (dropped ++ tail) (decide (c ∈ ['.', '!', '?'])) false (c :: piece))
        (piece.reverse ++ c :: (dropped ++ tail)) := by
      have step := ih (decide (c ∈ ['.', '!', '?'])) (c :: piece) fun stop =>
        ⟨c, piece, rfl, mark (of_decide_eq_true stop)⟩
      rwa [List.reverse_cons, List.append_assoc, List.singleton_append] at step
    constructor
    · intro stop piece ends
      rw [splitSentences, Bool.and_false, if_neg Bool.false_ne_true]
      split
      · rename_i here
        obtain ⟨space, stops⟩ := Bool.and_eq_true_iff.mp here
        obtain ⟨d, front, rfl, solid_⟩ := ends stops
        refine @Laid.cons _ _ _ _ (c :: dropped) _ _ ⟨front.reverse, d, List.reverse_cons, solid_⟩ ?_ (by simp)
          skipped
        exact List.forall_mem_cons.mpr ⟨space, blanks⟩
      · exact goes piece
    · by_cases space : Py.isSpace c = true
      · refine ⟨c :: dropped, tail, rfl, List.forall_mem_cons.mpr ⟨space, blanks⟩, ?_⟩
        rwa [splitSentences, space, Bool.and_true, if_pos rfl]
      · refine ⟨[], c :: (dropped ++ tail), rfl, nofun, ?_⟩
        rw [Bool.not_eq_true] at space
        rw [splitSentences, space, Bool.false_and, Bool.false_and, if_neg Bool.false_ne_true,
          if_neg Bool.false_ne_true]
        exact goes []

theorem splitSentences_head (cs : List Char) (stop : Bool) (piece : List Char) :
    ∃ more rest, splitSentences cs stop false piece = (piece.reverse ++ more) :: rest := by
  induction cs generalizing stop piece with
  | nil => exact ⟨[], [], by rw [splitSentences, List.append_nil]⟩
  | cons c cs ih =>
    rw [splitSentences, Bool.and_false, if_neg Bool.false_ne_true]
    split
    · exact ⟨[], _, by rw [List.append_nil]⟩
    · obtain ⟨more, rest, is⟩ := ih (decide (c ∈ ['.', '!', '?'])) (c :: piece)
      exact ⟨c :: more, rest, by rw [is, List.reverse_cons, List.append_assoc]; rfl⟩

/-! ## Paragraphs -/

theorem split_ne_nil (sep cs : List Char) (skip : Nat) (piece : List Char) :
    split sep cs skip piece ≠ [] := by
  induction cs generalizing skip piece with
  | nil => simp [split]
  | cons c cs ih =>
    cases skip with
    | zero =>
      rw [split]
      split
      · simp
      · exact ih _ _
    | succ skip => exact ih _ _

theorem split_skip (sep cs : List Char) (skip : Nat) :
    split sep cs skip [] = split sep (cs.drop skip) 0 [] := by
  induction cs generalizing skip with
  | nil =>
    rw [List.drop_nil, split, split]
  | cons c cs ih =>
    cases skip with
    | zero => rfl
    | succ skip => exact ih skip

/-- The parts, joined by the separator, are the text. -/
theorem intercalate_split {sep : List Char} (some_ : sep ≠ []) (cs piece : List Char) :
    sep.intercalate (split sep cs 0 piece) = piece.reverse ++ cs := by
  induction h : cs.length using Nat.strong_induction_on generalizing cs piece with
  | h n ih =>
    subst h
    cases cs with
    | nil => rw [split, List.intercalate_singleton, List.append_nil]
    | cons c cs =>
      rw [split]
      split
      · rename_i before
        obtain ⟨rest, is⟩ := List.isPrefixOf_iff_prefix.mp before
        obtain ⟨d, sep, rfl⟩ := List.exists_cons_of_ne_nil some_
        obtain ⟨rfl, rest_⟩ := List.cons.inj is
        replace rest_ : cs = sep ++ rest := rest_.symm
        subst rest_
        rw [split_skip, List.length_cons, Nat.add_sub_cancel, List.drop_left,
          List.intercalate_cons_of_ne_nil (split_ne_nil _ _ _ _),
          ih rest.length (by simp) rest [] rfl]
        simp
      · rw [ih cs.length (by simp) cs (c :: piece) rfl]
        simp

theorem paragraphs_laid {sep : List Char} (blanks : Blank Py.isSpace sep) (parts : List (List Char)) :
    ((parts.map stripChars).filter (· ≠ []) = [] ∧ Blank Py.isSpace (sep.intercalate parts)) ∨
      ∃ lead body, sep.intercalate parts = lead ++ body ∧ Blank Py.isSpace lead ∧
        Laid Py.isSpace sep.length ((parts.map stripChars).filter (· ≠ [])) body := by
  induction parts with
  | nil => exact .inl ⟨rfl, nofun⟩
  | cons r parts ih =>
    obtain ⟨lead, trail, is, leads, trails⟩ := strip_split Py.isSpace r
    rw [← stripChars_eq] at is
    -- what follows the part: nothing, or the separator and the others
    obtain ⟨rest, follows, ih⟩ : ∃ rest, sep.intercalate (r :: parts) = r ++ rest ∧
        (((parts.map stripChars).filter (· ≠ []) = [] ∧ Blank Py.isSpace rest) ∨
          ∃ gap body, rest = gap ++ body ∧ Blank Py.isSpace gap ∧ sep.length ≤ gap.length ∧
            Laid Py.isSpace sep.length ((parts.map stripChars).filter (· ≠ [])) body) := by
      by_cases none_ : parts = []
      · subst none_
        exact ⟨[], by simp, .inl ⟨rfl, nofun⟩⟩
      · refine ⟨sep ++ sep.intercalate parts, ?_, ?_⟩
        · rw [List.intercalate_cons_of_ne_nil none_, List.append_assoc]
        · obtain ⟨none', blanks'⟩ | ⟨gap, body, is, gaps, laid⟩ := ih
          · exact .inl ⟨none', blanks.append blanks'⟩
          · exact .inr ⟨sep ++ gap, body, by rw [is, List.append_assoc], blanks.append gaps,
              by simp, laid⟩
    rw [List.map_cons, follows]
    by_cases empty : stripChars r = []
    · have blank_ : Blank Py.isSpace r := by
        rw [is, empty]
        exact leads.append (Blank.append nofun trails)
      rw [List.filter_cons_of_neg (by simpa using empty)]
      obtain ⟨none', blanks'⟩ | ⟨gap, body, rfl, gaps, -, laid⟩ := ih
      · exact .inl ⟨none', blank_.append blanks'⟩
      · exact .inr ⟨r ++ gap, body, by rw [List.append_assoc], blank_.append gaps, laid⟩
    · right
      rw [List.filter_cons_of_pos (by simpa using empty)]
      have ends := strip_endsSolid Py.isSpace empty
      obtain ⟨none', blanks'⟩ | ⟨gap, body, rfl, gaps, long, laid⟩ := ih
      · rw [none']
        refine ⟨lead, stripChars r ++ (trail ++ rest), ?_, leads, .last _ _ (trails.append blanks')⟩
        conv_lhs => rw [is]
        simp only [List.append_assoc]
      · refine ⟨lead, stripChars r ++ (trail ++ gap ++ body), ?_, leads,
          .cons ends (trails.append gaps) (by simp; omega) laid⟩
        conv_lhs => rw [is]
        simp only [List.append_assoc]

/-- Joined paragraphs need no stripping. -/
theorem gather_stripped {size : Int} {sep : List Char} {pieces : List (List Char)}
    (stripped : ∀ p ∈ pieces, stripChars p = p ∧ p ≠ []) {current : List Char}
    (current_ : stripChars current = current) (i offset : Nat) :
    gather size sep id pieces current i offset =
      gather size sep stripChars pieces current i offset := by
  induction pieces generalizing current i offset with
  | nil => rw [gather, gather, current_, id]
  | cons p pieces ih =>
    rw [List.forall_mem_cons] at stripped
    obtain ⟨⟨piece, some_⟩, stripped⟩ := stripped
    rw [gather, gather]
    split
    · refine ih stripped ?_ _ _
      split
      · exact piece
      · rename_i some'
        exact strip_append Py.isSpace current_ piece some' some_ sep
    · split
      · exact ih stripped piece _ _
      · rw [ih stripped piece, current_, id]

/-! ## All strategies -/

/-- What is not too long is not taken apart. -/
theorem chunkRecursive_short {config : Config} {content : String}
    (short : (content.toList.length : Int) ≤ config.chunkSize) :
    chunkRecursive config content =
      .ok (chunkFrom config.chunkOverlap 0 0 [] [content.toList]) := by
  have pass (sep : List Char) : refine config.chunkSize sep [content.toList] = .ok [content.toList] := by
    rw [refine, if_neg (by simp; omega), List.flatMap_singleton, if_pos short]
  have passes : config.separators.foldlM
      (fun splits sep => refine config.chunkSize sep.toList splits) [content.toList] =
        .ok [content.toList] := by
    induction config.separators with
    | nil => rfl
    | cons sep seps ih =>
      rw [List.foldlM_cons, pass]
      exact ih
  rw [chunkRecursive, passes]
  rfl

/-- The text is such that the strategy keeps it: it is not to be taken apart, or its pieces joined
again are the text. -/
def Lays (strategy : ChunkingStrategy) (size : Int) (content : List Char) : Prop :=
  match strategy with
  | .fixedSize => True
  | .sentence => Whole size [' '] (splitSentences content false false []) content
  | .paragraph => Whole size ['\n', '\n'] (paragraphs content) content
  | .recursive => (content.length : Int) ≤ size

/-- What `_chunk_document` is to return for a text. -/
def Faithful (strategy : ChunkingStrategy) (size overlap : Int) (content : String)
    (chunks : List Chunk) : Prop :=
  Keeps (limit strategy size overlap) size (units strategy content.toList) content.toList chunks

theorem keeps_nil {limit size : Int} {units : List (List Char)} {content : List Char}
    (blanks : Blank Py.isSpace content) : Keeps limit size units content [] where
  stands := nofun
  short := nofun
  covers i c there solid_ := by
    have := blanks c (List.mem_of_getElem? there)
    rw [solid_] at this
    cases this

/-- The whole text is one chunk. -/
theorem keeps_all {size overlap : Int} {units : List (List Char)} {content : List Char}
    (nonneg : 0 ≤ overlap) (short : (content.length : Int) ≤ size) :
    Keeps (size + overlap) size units content (chunkFrom overlap 0 0 [] [content]) where
  stands := by
    have stop : (0 : Int) + (content.length : Int) = ((content.length : Nat) : Int) := Int.zero_add _
    rw [chunkFrom, chunkFrom, List.forall_mem_singleton, if_neg (by simp)]
    dsimp only
    rw [stop, String.toList_ofList]
    exact (slice_cast content 0 content.length).trans (by rw [List.take_length, List.drop_zero])
  short := by
    rw [chunkFrom, chunkFrom, List.forall_mem_singleton, if_neg (by simp), String.toList_ofList]
    exact .inl (by omega)
  covers := by
    intro i c there _
    have within := (List.getElem?_eq_some_iff.mp there).1
    rw [chunkFrom, chunkFrom, if_neg (by simp)]
    exact ⟨_, List.mem_cons_self, Int.natCast_nonneg i, by dsimp only; omega⟩

theorem sentence_keeps_iff {size : Int} {content : List Char} (nonneg : 0 ≤ size)
    (some_ : content ≠ []) :
    Keeps size size (splitSentences content false false []) content (chunkBySentence size content) ↔
      Whole size [' '] (splitSentences content false false []) content := by
  have laid := (splitSentences_laid content).1 false [] nofun
  refine gather_keeps_iff (List.nil_append content).symm nonneg (by decide) (by decide) nofun laid fun none_ => ?_
  obtain ⟨c, cs, rfl⟩ := List.exists_cons_of_ne_nil some_
  rw [splitSentences, Bool.and_false, if_neg Bool.false_ne_true, if_neg Bool.false_ne_true] at none_
  obtain ⟨more, rest, is⟩ := splitSentences_head cs (decide (c ∈ ['.', '!', '?'])) [c]
  rw [is] at none_
  simp at none_

theorem paragraph_keeps_iff {size : Int} (content : List Char) (nonneg : 0 ≤ size) :
    Keeps size size (paragraphs content) content (chunkByParagraph size content) ↔
      Whole size ['\n', '\n'] (paragraphs content) content := by
  have stripped : ∀ p ∈ paragraphs content, stripChars p = p ∧ p ≠ [] := by
    intro p mem
    obtain ⟨mem, some_⟩ := List.mem_filter.mp mem
    obtain ⟨part, -, rfl⟩ := List.mem_map.mp mem
    have some_ : stripChars part ≠ [] := by simpa using some_
    exact ⟨strip_strip Py.isSpace part, some_⟩
  have chunks : chunkByParagraph size content =
      gather size ['\n', '\n'] stripChars (paragraphs content) [] 0 0 :=
    gather_stripped stripped rfl 0 0
  rw [chunks]
  have laid := paragraphs_laid (show Blank Py.isSpace ['\n', '\n'] by decide)
    (split ['\n', '\n'] content 0 [])
  rw [intercalate_split (by simp), List.reverse_nil, List.nil_append] at laid
  obtain ⟨none_, blanks⟩ | ⟨lead, body, is, leads, laid⟩ := laid
  · change paragraphs content = [] at none_
    rw [none_]
    exact iff_of_true (keeps_nil blanks) (.inl ⟨List.nil_prefix, rfl, .inl nonneg⟩)
  · refine gather_keeps_iff is nonneg (by decide) (by decide) leads laid fun none_ => ?_
    exact (stripped [] (by rw [none_]; exact List.mem_cons_self)).2 rfl

theorem chunks_keep {strategy : ChunkingStrategy} {size overlap : Int} {content : String}
    {chunks : List Chunk} (nonneg : 0 ≤ overlap) (advances : overlap < size)
    (returned : Returns strategy { chunkSize := size, chunkOverlap := overlap } content chunks) :
    (Lays strategy size content.toList → Faithful strategy size overlap content chunks) ∧
      (strategy ≠ .recursive → Faithful strategy size overlap content chunks →
        Lays strategy size content.toList) := by
  obtain ⟨fuel, returned⟩ := returned
  unfold chunkWith at returned
  by_cases empty : content = ""
  · rw [if_pos empty] at returned
    obtain rfl := Except.ok.inj (Option.some.inj returned)
    subst empty
    have zero : ((0 : Nat) : Int) ≤ size := by omega
    refine ⟨fun _ => keeps_nil nofun, fun other _ => ?_⟩
    cases strategy with
    | fixedSize => trivial
    | sentence => exact .inl ⟨List.nil_prefix, rfl, .inl zero⟩
    | paragraph => exact .inl ⟨List.nil_prefix, rfl, .inl zero⟩
    | recursive => exact absurd rfl other
  · rw [if_neg empty] at returned
    have some_ : content.toList ≠ [] := by simpa using empty
    cases strategy with
    | fixedSize =>
      obtain ⟨chunks', looped, same⟩ := Option.map_eq_some_iff.mp returned
      obtain rfl := Except.ok.inj same
      obtain ⟨stand, cover⟩ := chunkFixedSize_keeps nonneg advances fuel le_rfl 0 looped
      refine ⟨fun _ => ⟨fun chunk mem => (stand chunk mem).1, fun chunk mem => .inl (stand chunk mem).2,
        fun i c there _ => ?_⟩, fun _ _ => trivial⟩
      exact cover i (Int.natCast_nonneg i) (List.getElem?_eq_some_iff.mp there).1
    | sentence =>
      obtain rfl := Except.ok.inj (Option.some.inj returned)
      have iff_ := sentence_keeps_iff (show 0 ≤ size by omega) some_
      exact ⟨iff_.mpr, fun _ => iff_.mp⟩
    | paragraph =>
      obtain rfl := Except.ok.inj (Option.some.inj returned)
      have iff_ := paragraph_keeps_iff content.toList (show 0 ≤ size by omega)
      exact ⟨iff_.mpr, fun _ => iff_.mp⟩
    | recursive =>
      refine ⟨fun short => ?_, fun other => absurd rfl other⟩
      have short' : (content.toList.length : Int) ≤ size := short
      obtain rfl := Except.ok.inj ((Option.some.inj returned).symm.trans (chunkRecursive_short short))
      exact keeps_all nonneg short'

/-- Three sentences, the last of which does not fit. -/
theorem shifted_chunk : ¬ ∀ (strategy : ChunkingStrategy) (size overlap : Int) (content : String)
    (chunks : List Chunk), 0 ≤ overlap → overlap < size →
    Returns strategy { chunkSize := size, chunkOverlap := overlap } content chunks →
    Faithful strategy size overlap content chunks := by
  intro claim
  have keeps := claim .sentence 9 0 "One. Two. Six." _ le_rfl (by decide) ⟨0, rfl⟩
  have there : (⟨"chunk-1", "Six.", 9, 13⟩ : Chunk) ∈ chunkBySentence 9 "One. Two. Six.".toList := by
    decide
  exact absurd (keeps.stands _ there) (by decide)

theorem chunks_keep_one : Faithful .sentence 9 0 "One. Two." [⟨"chunk-0", "One. Two.", 0, 9⟩] :=
  (@chunks_keep .sentence 9 0 "One. Two." _ (by decide) (by decide) ⟨0, rfl⟩).1 (.inl (by decide))

end AgentStudio.Ingestion
