import Jcode.Tool.ParseApplyPatch
import Mathlib.Data.List.Flatten

/-!
# Which lines of an update get into its chunks

The section of an update goes up to the next directive. The loop over its chunks stops at a line
that begins no chunk, and the loop over the directives passes over what is left: added and removed
lines there are in no chunk. Whether that happens is seen from where each line stands.
-/

namespace Jcode

/-- The lines of an update up to the next directive. -/
def updateSection (lines : List Line) : List Line := lines.takeWhile fun line => ¬ endsUpdate line

/-- An added or a removed line. -/
def IsEdit (line : Line) : Prop := StartsWith line "+" ∨ StartsWith line "-"

instance (line : Line) : Decidable (IsEdit line) := inferInstanceAs (Decidable (_ ∨ _))

def edits (lines : List Line) : List Line := lines.filter fun line => IsEdit line

/-- A chunk has the old and the new lines of a body. -/
def IsBodyOf (body : List Line) (chunk : UpdateFileChunk) : Prop :=
  chunk.oldLines = body.filterMap oldContent ∧ chunk.newLines = body.filterMap newContent

/-- The chunks have, one after the other, all edits of the section, from what the loop has gone
over. -/
def KeepsEdits (lines : List Line) (chunks : List UpdateFileChunk) : Prop :=
  ∃ bodies : List (List Line), List.Forall₂ IsBodyOf bodies chunks ∧
    bodies.flatten.Sublist (lines.take (lines.length - (updateChunks true lines).2.length)) ∧
    edits bodies.flatten = edits (updateSection lines)

/-- A header of a chunk, `@@` alone or with a context behind a space. -/
def IsHeader (line : Line) : Prop := (chunkHeader false (trimEnd line)).isSome

instance (line : Line) : Decidable (IsHeader line) := inferInstanceAs (Decidable (_ = true))

/-- Where a line stands: before all chunks, behind a chunk, or within one, before or behind its
first diff line. -/
inductive SectionPlace
  | start
  | between
  | opened
  | body
  deriving DecidableEq

namespace SectionPlace

/-- The place behind a line between chunks, if it is blank or a header. -/
def nextBetween (line : Line) : Option SectionPlace :=
  if trimEnd line = [] then some between
  else if IsHeader line then some opened
  else none

/-- The place behind a line within a chunk; some other line ends a chunk with diff lines. -/
def nextInside (had : Bool) (line : Line) : Option SectionPlace :=
  if line = endOfFile then some between
  else if StartsWith line "@@" then nextBetween line
  else if IsDiffLine line then some body
  else if had then nextBetween line
  else some opened

def next : SectionPlace → Line → Option SectionPlace
  | start, line => if trimEnd line = [] then some start else nextInside false line
  | between, line => nextBetween line
  | opened, line => nextInside false line
  | body, line => nextInside true line

end SectionPlace

/-- From the first line on that has no place, there is no edit. -/
def Unbroken : SectionPlace → List Line → Prop
  | _, [] => True
  | place, line :: lines =>
    match place.next line with
    | some place => Unbroken place lines
    | none => ∀ other ∈ line :: lines, ¬ IsEdit other

variable {lines left gone gone' body body' oldLines newLines : List Line} {line : Line}
  {hadDiffLines isFirstChunk : Bool} {bodies : List (List Line)} {chunks : List UpdateFileChunk}

/-! ### Kinds of lines -/

lemma trimEnd_isPrefix : trimEnd line <+: line := by
  rw [trimEnd, ← List.reverse_suffix, List.reverse_reverse]
  exact List.dropWhile_suffix _

lemma trimEnd_eq_nil : trimEnd line = [] ↔ ∀ c ∈ line, isWhitespace c = true := by
  rw [trimEnd, List.reverse_eq_nil_iff, List.dropWhile_eq_nil_iff]
  simp only [List.mem_reverse]

lemma trimLine_eq_nil : trimLine line = [] ↔ ∀ c ∈ line, isWhitespace c = true := by
  rw [trimLine, trimEnd_eq_nil]
  refine ⟨fun h => ?_, fun h c hc => h c ((List.dropWhile_sublist _).subset hc)⟩
  have hnil : line.dropWhile isWhitespace = [] := by
    by_contra hne
    have hhead := List.head_dropWhile_not isWhitespace hne
    rw [h _ (List.head_mem hne)] at hhead
    cases hhead
  exact List.dropWhile_eq_nil_iff.mp hnil

lemma StartsWith.of_trimEnd {start : String} (h : StartsWith (trimEnd line) start) :
    StartsWith line start :=
  h.trans trimEnd_isPrefix

/-- A line is passed over between chunks if it is blank. -/
lemma isBlankBetween_trimEnd : isBlankBetween (trimEnd line) ↔ trimEnd line = [] := by
  refine ⟨fun h => ?_, fun h => ?_⟩
  · have hall := trimLine_eq_nil.mp h.1
    by_contra hne
    have hdrop : line.reverse.dropWhile isWhitespace ≠ [] := mt (congrArg List.reverse) hne
    have hhead := List.head_dropWhile_not isWhitespace hdrop
    rw [hall _ (List.mem_reverse.mpr (List.head_mem hdrop))] at hhead
    cases hhead
  · rw [h]
    decide

lemma isDiffLine_of_isEdit (h : IsEdit line) : IsDiffLine line := by
  rcases h with ⟨rest, rfl⟩ | ⟨rest, rfl⟩
  · exact .inr rfl
  · exact .inl rfl

lemma not_isEdit_of_startsWith {c : Char} {start : String} (hc : start.toList.head? = some c)
    (hplus : c ≠ '+') (hminus : c ≠ '-') (h : StartsWith line start) : ¬ IsEdit line := by
  obtain ⟨tail, htail⟩ := List.head?_eq_some_iff.mp hc
  obtain ⟨rest, rfl⟩ := h
  rw [htail]
  rintro (⟨rest', heq⟩ | ⟨rest', heq⟩)
  · exact hplus (List.cons.inj heq).1.symm
  · exact hminus (List.cons.inj heq).1.symm

lemma not_isEdit_endOfFile : ¬ IsEdit endOfFile := by decide

lemma not_endsUpdate_endOfFile : ¬ endsUpdate endOfFile := fun h => h.2 rfl

lemma not_isEdit_of_blank (h : trimEnd line = []) : ¬ IsEdit line := by
  have hall := trimEnd_eq_nil.mp h
  rintro (⟨rest, rfl⟩ | ⟨rest, rfl⟩)
  · exact absurd (hall '+' List.mem_cons_self) (by decide)
  · exact absurd (hall '-' List.mem_cons_self) (by decide)

/-- A header begins with `@@`. -/
lemma startsWith_of_chunkHeader {context : Option Line}
    (h : chunkHeader isFirstChunk (trimEnd line) = some (context, true)) :
    StartsWith line "@@" := by
  refine StartsWith.of_trimEnd ?_
  rw [chunkHeader] at h
  by_cases hat : trimEnd line = "@@".toList
  · rw [hat]
    exact List.prefix_refl _
  · rw [if_neg hat] at h
    cases hcontext : stripPrefix "@@ " (trimEnd line) with
    | none => simp [hcontext] at h
    | some context' =>
      rw [stripPrefix] at hcontext
      split_ifs at hcontext with hprefix
      exact List.IsPrefix.trans (by decide) hprefix

lemma not_endsUpdate_of_startsWith (h : StartsWith line "@@") : ¬ endsUpdate line := by
  rintro ⟨hstars, -⟩
  obtain ⟨rest, rfl⟩ := h
  obtain ⟨rest', heq⟩ := hstars
  exact absurd (List.cons.inj heq).1 (by decide)

/-- A blank line is no directive. -/
lemma not_endsUpdate_of_blank (h : trimEnd line = []) : ¬ endsUpdate line := by
  have hall := trimEnd_eq_nil.mp h
  rintro ⟨⟨rest, rfl⟩, -⟩
  exact absurd (hall '*' List.mem_cons_self) (by decide)

/-! ### What is gone over -/

/-- The lines that were gone over, and those of them that were taken: all edits, and no
directive. -/
structure GoneOver (gone taken : List Line) : Prop where
  sublist : taken.Sublist gone
  edits_eq : edits taken = edits gone
  section_ : ∀ line ∈ gone, ¬ endsUpdate line

lemma GoneOver.nil : GoneOver [] [] := ⟨.slnil, rfl, by simp⟩

lemma GoneOver.append (h : GoneOver gone body) (h' : GoneOver gone' body') :
    GoneOver (gone ++ gone') (body ++ body') where
  sublist := h.sublist.append h'.sublist
  edits_eq := by
    rw [edits, edits, List.filter_append, List.filter_append]
    exact congrArg₂ _ h.edits_eq h'.edits_eq
  section_ := fun line hline => (List.mem_append.mp hline).elim (h.section_ line) (h'.section_ line)

/-- A line that is no edit may be left out. -/
lemma GoneOver.skip (hline : ¬ IsEdit line) (hend : ¬ endsUpdate line) : GoneOver [line] [] where
  sublist := List.nil_sublist _
  edits_eq := by simp [edits, hline]
  section_ := by simpa using hend

lemma GoneOver.take (hend : ¬ endsUpdate line) : GoneOver [line] [line] where
  sublist := List.Sublist.refl _
  edits_eq := rfl
  section_ := by simpa using hend

lemma filterMap_cons_toList {f : Line → Option Line} :
    (line :: body).filterMap f = (f line).toList ++ body.filterMap f := by
  rw [List.filterMap_cons]
  cases f line <;> rfl

/-- A chunk takes all diff lines that its loop goes over. -/
lemma exists_chunkLines : ∃ gone body,
    lines = gone ++ (chunkLines oldLines newLines hadDiffLines lines).2 ∧ GoneOver gone body ∧
    (chunkLines oldLines newLines hadDiffLines lines).1.oldLines =
      oldLines ++ body.filterMap oldContent ∧
    (chunkLines oldLines newLines hadDiffLines lines).1.newLines =
      newLines ++ body.filterMap newContent ∧
    ((chunkLines oldLines newLines hadDiffLines lines).1.hadDiffLines = false →
      hadDiffLines = false ∧ body = []) := by
  induction lines generalizing oldLines newLines hadDiffLines with
  | nil => exact ⟨[], [], rfl, .nil, by simp [chunkLines], by simp [chunkLines],
      fun h => ⟨h, rfl⟩⟩
  | cons cl lines ih =>
    rw [chunkLines]
    split_ifs with heof hdirective hdiff hhad
    · rw [heof]
      exact ⟨[endOfFile], [], rfl, .skip not_isEdit_endOfFile not_endsUpdate_endOfFile, by simp,
        by simp, fun h => ⟨h, rfl⟩⟩
    · exact ⟨[], [], rfl, .nil, by simp, by simp, fun h => ⟨h, rfl⟩⟩
    · have hend : ¬ endsUpdate cl := fun h => hdirective (.inl h.1)
      obtain ⟨gone, body, hlines, hgone, hold, hnew, hhad⟩ := ih
      refine ⟨cl :: gone, cl :: body, congrArg (cl :: ·) hlines, (GoneOver.take hend).append hgone,
        ?_, ?_, ?_⟩
      · rw [hold, filterMap_cons_toList, List.append_assoc]
      · rw [hnew, filterMap_cons_toList, List.append_assoc]
      · exact fun h => absurd (hhad h).1 Bool.noConfusion
    · exact ⟨[], [], rfl, .nil, by simp, by simp, fun h => ⟨h, rfl⟩⟩
    · have hend : ¬ endsUpdate cl := fun h => hdirective (.inl h.1)
      obtain ⟨gone, body, hlines, hgone, hrest⟩ := ih
      exact ⟨cl :: gone, body, congrArg (cl :: ·) hlines,
        (GoneOver.skip (mt isDiffLine_of_isEdit hdiff) hend).append hgone, hrest⟩

/-- The chunks of an update take all edits that its loop goes over. -/
lemma exists_updateChunks (isFirstChunk : Bool) (lines : List Line) : ∃ gone bodies,
    lines = gone ++ (updateChunks isFirstChunk lines).2 ∧
      GoneOver gone (List.flatten bodies) ∧
      List.Forall₂ IsBodyOf bodies (updateChunks isFirstChunk lines).1 := by
  fun_induction updateChunks isFirstChunk lines with
  | case1 => exact ⟨[], [], rfl, .nil, .nil⟩
  | case2 => exact ⟨[], [], rfl, .nil, .nil⟩
  | case3 _ line lines current hends hblank ih =>
    have hblank := isBlankBetween_trimEnd.mp hblank
    obtain ⟨gone, bodies, hlines, hgone, hbodies⟩ := ih
    exact ⟨line :: gone, bodies, congrArg (line :: ·) hlines,
      (GoneOver.skip (not_isEdit_of_blank hblank) (not_endsUpdate_of_blank hblank)).append hgone,
      hbodies⟩
  | case4 => exact ⟨[], [], rfl, .nil, .nil⟩
  | case5 _ line lines current hends hblank context isHeader hheader read rest ih =>
    obtain ⟨gone, bodies, hlines, hgone, hbodies⟩ := ih
    obtain ⟨goneChunk, body, hinput, hgoneChunk, hold, hnew, hhad⟩ : ∃ gone body,
        chunkInput isHeader line lines = gone ++ read.2 ∧ GoneOver gone body ∧
        read.1.oldLines = [] ++ body.filterMap oldContent ∧
        read.1.newLines = [] ++ body.filterMap newContent ∧
        (read.1.hadDiffLines = false → false = false ∧ body = []) := exists_chunkLines
    -- the header, which is no edit, is gone as well
    have hheaderGone : ∃ gone, line :: lines = gone ++ read.2 ∧ GoneOver gone body := by
      cases isHeader with
      | false => exact ⟨goneChunk, hinput, hgoneChunk⟩
      | true =>
        have hat := startsWith_of_chunkHeader hheader
        have hskip : GoneOver [line] [] :=
          .skip (not_isEdit_of_startsWith rfl (by decide) (by decide) hat)
            (not_endsUpdate_of_startsWith hat)
        exact ⟨line :: goneChunk, congrArg (line :: ·) hinput, hskip.append hgoneChunk⟩
    obtain ⟨goneAll, hlinesAll, hgoneAll⟩ := hheaderGone
    have hpush : ∃ more : List (List Line), more.flatten = body ∧
        List.Forall₂ IsBodyOf more (pushChunk context read.1) := by
      rw [pushChunk]
      split_ifs with hpushed
      · exact ⟨[body], by simp, .cons ⟨hold, hnew⟩ .nil⟩
      · have hfalse : read.1.hadDiffLines = false := by
          simpa using fun h => hpushed (.inl h)
        exact ⟨[], (hhad hfalse).2.symm, .nil⟩
    obtain ⟨more, hflatten, hmore⟩ := hpush
    refine ⟨goneAll ++ gone, more ++ bodies, ?_, ?_, ?_⟩
    · rw [hlinesAll, hlines, List.append_assoc]
    · rw [List.flatten_append, hflatten]
      exact hgoneAll.append hgone
    · exact List.rel_append hmore hbodies

/-! ### Where the loop stops -/

lemma updateSection_cons_of_endsUpdate (h : endsUpdate line) :
    updateSection (line :: lines) = [] :=
  List.takeWhile_cons_of_neg (by simpa using h)

lemma updateSection_cons (h : ¬ endsUpdate line) :
    updateSection (line :: lines) = line :: updateSection lines :=
  List.takeWhile_cons_of_pos (by simpa using h)

lemma updateSection_append (h : ∀ line ∈ gone, ¬ endsUpdate line) :
    updateSection (gone ++ left) = gone ++ updateSection left :=
  List.takeWhile_append_of_pos (by simpa using h)

/-- The place within a chunk. -/
def insidePlace (hadDiffLines : Bool) : SectionPlace :=
  if hadDiffLines then .body else .opened

lemma next_insidePlace :
    (insidePlace hadDiffLines).next line = SectionPlace.nextInside hadDiffLines line := by
  cases hadDiffLines <;> rfl

/-- Two places that a line leaves alike. -/
lemma unbroken_congr {place place' : SectionPlace} (h : place.next line = place'.next line) :
    Unbroken place (line :: lines) ↔ Unbroken place' (line :: lines) := by
  rw [Unbroken, Unbroken, h]

lemma unbroken_cons_of_next {place place' : SectionPlace} (h : place.next line = some place') :
    Unbroken place (line :: lines) ↔ Unbroken place' lines := by
  rw [Unbroken, h]

/-- Where the loop over the lines of a chunk ends, the place is behind the chunk. -/
lemma unbroken_chunkLines (hadDiffLines : Bool) :
    Unbroken (insidePlace hadDiffLines) (updateSection lines) ↔
      Unbroken .between
        (updateSection (chunkLines oldLines newLines hadDiffLines lines).2) := by
  induction lines generalizing oldLines newLines hadDiffLines with
  | nil => exact Iff.rfl
  | cons cl lines ih =>
    rw [chunkLines]
    by_cases heof : cl = endOfFile
    · rw [if_pos heof, heof, updateSection_cons not_endsUpdate_endOfFile]
      refine unbroken_cons_of_next ?_
      rw [next_insidePlace, SectionPlace.nextInside, if_pos rfl]
    rw [if_neg heof]
    by_cases hend : endsUpdate cl
    · rw [if_pos (.inl hend.1), updateSection_cons_of_endsUpdate hend]
      exact Iff.rfl
    by_cases hat : StartsWith cl "@@"
    · rw [if_pos (.inr hat), updateSection_cons hend]
      refine unbroken_congr ?_
      rw [next_insidePlace, SectionPlace.nextInside, if_neg heof, if_pos hat]
      rfl
    rw [if_neg (not_or.mpr ⟨fun h => hend ⟨h, heof⟩, hat⟩), updateSection_cons hend]
    by_cases hdiff : IsDiffLine cl
    · rw [if_pos hdiff, ← ih]
      refine unbroken_cons_of_next ?_
      rw [next_insidePlace, SectionPlace.nextInside, if_neg heof, if_neg hat, if_pos hdiff]
      rfl
    · rw [if_neg hdiff]
      cases hadDiffLines with
      | true =>
        rw [if_pos rfl, updateSection_cons hend]
        refine unbroken_congr ?_
        rw [next_insidePlace, SectionPlace.nextInside, if_neg heof, if_neg hat, if_neg hdiff,
          if_pos rfl]
        rfl
      | false =>
        rw [if_neg Bool.false_ne_true, ← ih]
        refine unbroken_cons_of_next ?_
        rw [next_insidePlace, SectionPlace.nextInside, if_neg heof, if_neg hat, if_neg hdiff,
          if_neg Bool.false_ne_true]
        rfl

/-- The place before a line that the loop over the chunks looks at. -/
def outsidePlace (isFirstChunk : Bool) : SectionPlace :=
  if isFirstChunk then .start else .between

lemma endsUpdate_of_trimEnd (h : endsUpdate (trimEnd line)) : endsUpdate line := by
  refine ⟨.of_trimEnd h.1, ?_⟩
  rintro rfl
  exact h.2 (by decide)

lemma next_outsidePlace_of_blank (h : trimEnd line = []) :
    (outsidePlace isFirstChunk).next line = some (outsidePlace isFirstChunk) := by
  cases isFirstChunk
  · exact if_pos h
  · exact if_pos h

/-- A header does not depend on whether it is that of the first chunk. -/
lemma isHeader_of_chunkHeader {context : Option Line}
    (h : chunkHeader isFirstChunk (trimEnd line) = some (context, true)) : IsHeader line := by
  cases isFirstChunk with
  | false => exact Option.isSome_of_eq_some h
  | true =>
    rw [IsHeader, chunkHeader]
    rw [chunkHeader] at h
    by_cases hat : trimEnd line = "@@".toList
    · rw [if_pos hat]
      rfl
    · rw [if_neg hat] at h ⊢
      cases hcontext : stripPrefix "@@ " (trimEnd line) with
      | none => simp [hcontext] at h
      | some context' => rfl

lemma next_outsidePlace_of_header {context : Option Line} (hblank : trimEnd line ≠ [])
    (h : chunkHeader isFirstChunk (trimEnd line) = some (context, true)) :
    (outsidePlace isFirstChunk).next line = some .opened := by
  have hbetween : SectionPlace.nextBetween line = some .opened := by
    rw [SectionPlace.nextBetween, if_neg hblank, if_pos (isHeader_of_chunkHeader h)]
  cases isFirstChunk with
  | false => exact hbetween
  | true =>
    have hat := startsWith_of_chunkHeader h
    have heof : line ≠ endOfFile := by
      rintro rfl
      exact absurd hat (by decide)
    have hinside : SectionPlace.nextInside false line = some .opened := by
      rw [SectionPlace.nextInside, if_neg heof, if_pos hat, hbetween]
    exact (if_neg hblank).trans hinside

/-- The first chunk may begin without a header. -/
lemma next_start (hblank : trimEnd line ≠ []) :
    SectionPlace.start.next line = SectionPlace.opened.next line :=
  if_neg hblank

/-- Where a line is not passed over and begins no chunk, the loop stops. -/
lemma of_chunkHeader_eq_none (hblank : trimEnd line ≠ [])
    (h : chunkHeader isFirstChunk (trimEnd line) = none) :
    (outsidePlace isFirstChunk).next line = none := by
  cases isFirstChunk with
  | false =>
    have hheader : ¬ IsHeader line := by
      rw [IsHeader, h]
      exact Bool.false_ne_true
    exact (if_neg hblank).trans (if_neg hheader)
  | true =>
    rw [chunkHeader] at h
    by_cases hat : trimEnd line = "@@".toList
    · rw [if_pos hat] at h
      cases h
    · rw [if_neg hat] at h
      cases hcontext : stripPrefix "@@ " (trimEnd line) <;> simp [hcontext] at h

/-- The loop over the chunks leaves no edit if and only if the section is unbroken. -/
lemma unbroken_updateChunks (isFirstChunk : Bool) :
    Unbroken (outsidePlace isFirstChunk) (updateSection lines) ↔
      ∀ line ∈ updateSection (updateChunks isFirstChunk lines).2, ¬ IsEdit line := by
  fun_induction updateChunks isFirstChunk lines with
  | case1 => exact iff_of_true trivial fun _ hline => absurd hline List.not_mem_nil
  | case2 _ line lines current hends =>
    rw [updateSection_cons_of_endsUpdate (endsUpdate_of_trimEnd hends)]
    exact iff_of_true trivial fun _ hline => absurd hline List.not_mem_nil
  | case3 isFirst line lines current hends hblank ih =>
    have hblank := isBlankBetween_trimEnd.mp hblank
    rw [updateSection_cons (not_endsUpdate_of_blank hblank), ← ih]
    exact unbroken_cons_of_next (next_outsidePlace_of_blank hblank)
  | case4 isFirst line lines current hends hblank hheader =>
    have hblank := mt isBlankBetween_trimEnd.mpr hblank
    by_cases hend : endsUpdate line
    · rw [updateSection_cons_of_endsUpdate hend]
      exact iff_of_true trivial fun _ hline => absurd hline List.not_mem_nil
    · rw [updateSection_cons hend, Unbroken, of_chunkHeader_eq_none hblank hheader]
  | case5 isFirst line lines current hends hblank context isHeader hheader read rest ih =>
    have hblank := mt isBlankBetween_trimEnd.mpr hblank
    have hchunk : Unbroken .opened (updateSection (chunkInput isHeader line lines)) ↔
        Unbroken .between (updateSection read.2) := unbroken_chunkLines false
    rw [← ih]
    refine Iff.trans ?_ hchunk
    cases isHeader with
    | true =>
      have hat := startsWith_of_chunkHeader hheader
      rw [updateSection_cons (not_endsUpdate_of_startsWith hat)]
      exact unbroken_cons_of_next (next_outsidePlace_of_header hblank hheader)
    | false =>
      cases chunkHeader_false hheader
      by_cases hend : endsUpdate line
      · rw [chunkInput, if_neg Bool.false_ne_true, updateSection_cons_of_endsUpdate hend]
        exact Iff.rfl
      · rw [chunkInput, if_neg Bool.false_ne_true, updateSection_cons hend]
        exact unbroken_congr (next_start hblank)

/-- The chunks have all edits of the section if and only if it is unbroken. -/
lemma keepsEdits_iff_unbroken : KeepsEdits lines (updateChunks true lines).1 ↔
    Unbroken .start (updateSection lines) := by
  obtain ⟨gone, bodies, hlines, hgone, hbodies⟩ :=
    exists_updateChunks true lines
  set left := (updateChunks true lines).2 with hleft
  have hiff : Unbroken .start (updateSection lines) ↔
      ∀ line ∈ updateSection left, ¬ IsEdit line := unbroken_updateChunks true
  have hsection : edits (updateSection lines) = edits gone ++ edits (updateSection left) := by
    rw [hlines, updateSection_append hgone.section_, edits, List.filter_append]
    rfl
  have htake : lines.take (lines.length - left.length) = gone := by
    rw [hlines, List.length_append, Nat.add_sub_cancel, List.take_left]
  have hnone : edits (updateSection left) = [] ↔ ∀ line ∈ updateSection left, ¬ IsEdit line := by
    simp [edits]
  rw [hiff, ← hnone]
  constructor
  · rintro ⟨bodies', -, hsub, heq⟩
    rw [htake] at hsub
    -- no more edits than those gone over
    have hle : (edits bodies'.flatten).length ≤ (edits gone).length :=
      (hsub.filter _).length_le
    rw [heq, hsection, List.length_append] at hle
    exact List.length_eq_zero_iff.mp (by omega)
  · intro hnil
    refine ⟨bodies, hbodies, ?_, ?_⟩
    · rw [htake]
      exact hgone.sublist
    · rw [hsection, hnil, List.append_nil, hgone.edits_eq]

/-! ### The whole patch -/

/-- The lines behind the headers of the updates that the loop over the directives comes to. -/
def updateTails : List Line → List (List Line)
  | [] => []
  | line :: lines =>
    if isEndPatch line then []
    else
      match _hturn : parseDirective (trimEnd line) lines with
      | .error _ => []
      | .ok (some (.updateFile _ _ _), left) => (takeMoveTo lines).2 :: updateTails left
      | .ok (_, left) => updateTails left
termination_by lines => lines.length
decreasing_by
  · exact Nat.lt_succ_of_le (parseDirective_suffix _hturn).length_le
  · exact Nat.lt_succ_of_le (parseDirective_suffix _hturn).length_le

def PatchHunk.chunks? : PatchHunk → Option (List UpdateFileChunk)
  | .updateFile _ _ chunks => some chunks
  | _ => none

/-- Each update of the patch has the edits of its section. -/
def PatchKeepsEdits (lines : List Line) (hunks : List PatchHunk) : Prop :=
  List.Forall₂ KeepsEdits (updateTails lines) (hunks.filterMap PatchHunk.chunks?)

variable {hunk : PatchHunk} {hunks : List PatchHunk} {input : String}

lemma chunks_of_parseDirective {path : Line} {moveTo : Option Line}
    (h : parseDirective line lines = .ok (some (.updateFile path moveTo chunks), left)) :
    chunks = (updateChunks true (takeMoveTo lines).2).1 := by
  rw [parseDirective] at h
  split at h
  · cases h
  · split at h
    · cases h
    · split at h
      · dsimp only at h
        split_ifs at h
        cases h
        rfl
      · cases h

lemma of_parseDirectives_cons (hend : ¬ isEndPatch line)
    (h : parseDirectives (line :: lines) = .ok hunks) :
    ∃ hunk left rest, parseDirective (trimEnd line) lines = .ok (hunk, left) ∧
      parseDirectives left = .ok rest ∧ hunks = hunk.toList ++ rest := by
  rw [parseDirectives, if_neg hend] at h
  split at h
  · cases h
  · rename_i hunk left hturn
    cases hrest : parseDirectives left with
    | error e =>
      rw [hrest] at h
      cases h
    | ok rest =>
      rw [hrest] at h
      cases h
      exact ⟨hunk, left, rest, hturn, hrest, rfl⟩

/-- The updates that are parsed are those of the tails. -/
lemma filterMap_parseDirectives (h : parseDirectives lines = .ok hunks) :
    hunks.filterMap PatchHunk.chunks? =
      (updateTails lines).map fun tail => (updateChunks true tail).1 := by
  fun_induction updateTails lines generalizing hunks with
  | case1 =>
    rw [parseDirectives] at h
    cases h
    rfl
  | case2 line lines hend =>
    rw [parseDirectives, if_pos hend] at h
    cases h
    rfl
  | case3 line lines hend e hturn =>
    obtain ⟨hunk, left, rest, hok, -, -⟩ := of_parseDirectives_cons hend h
    cases hturn.symm.trans hok
  | case4 line lines hend path moveTo chunks left hturn ih =>
    obtain ⟨hunk, left, rest, hok, hrest, rfl⟩ := of_parseDirectives_cons hend h
    cases hturn.symm.trans hok
    rw [List.map_cons, ← ih hrest, ← chunks_of_parseDirective hturn]
    rfl
  | case5 line lines hend hunk left hother hturn ih =>
    obtain ⟨hunk, left, rest, hok, hrest, rfl⟩ := of_parseDirectives_cons hend h
    cases hturn.symm.trans hok
    rw [← ih hrest]
    cases hunk with
    | none => rfl
    | some hunk =>
      cases hunk with
      | addFile path contents => rfl
      | deleteFile path => rfl
      | updateFile path moveTo chunks => exact absurd rfl (hother path moveTo chunks)

lemma forall₂_keepsEdits (h : parseDirectives lines = .ok hunks) : PatchKeepsEdits lines hunks ↔
    ∀ tail ∈ updateTails lines, Unbroken .start (updateSection tail) := by
  rw [PatchKeepsEdits, filterMap_parseDirectives h, List.forall₂_map_right_iff, List.forall₂_same]
  exact forall₂_congr fun _ _ => keepsEdits_iff_unbroken

/-- The chunks of a patch have every edit of its update sections, in order and each in one chunk, if
and only if all of these sections are unbroken. -/
theorem patchKeepsEdits_iff_unbroken (hlines : patchLines input = some lines)
    (h : parseApplyPatch input = .ok hunks) : PatchKeepsEdits lines hunks ↔
      ∀ tail ∈ updateTails lines, Unbroken .start (updateSection tail) := by
  refine forall₂_keepsEdits ?_
  rw [parseApplyPatch, hlines] at h
  dsimp only at h
  split at h
  · cases h
  · split_ifs at h
    cases h
    assumption

instance decidableUnbroken : (place : SectionPlace) → (lines : List Line) →
    Decidable (Unbroken place lines)
  | _, [] => .isTrue trivial
  | place, line :: lines =>
    match hnext : place.next line with
    | some place' =>
      @decidable_of_iff _ (Unbroken place' lines) (unbroken_cons_of_next hnext).symm
        (decidableUnbroken place' lines)
    | none => decidable_of_iff (∀ other ∈ line :: lines, ¬ IsEdit other) (by rw [Unbroken, hnext])

/-- A chunk without a header, and one with a context at the end of the file. -/
def twoChunksUpdate : List Line :=
  ["*** Update File: f", "-a", "@@ c", "+d", "*** End of File", "*** End Patch"].map String.toList

theorem patchKeepsEdits_iff_unbroken_twoChunks :
    PatchKeepsEdits twoChunksUpdate
      [.updateFile "f".toList none [⟨none, ["a".toList], [], false⟩,
        ⟨some "c".toList, [], ["d".toList], true⟩]] := by
  have htext :
      "*** Begin Patch\n*** Update File: f\n-a\n@@ c\n+d\n*** End of File\n*** End Patch".toList =
        _ := String.toList_ofList
  have hlines : patchLines
      "*** Begin Patch\n*** Update File: f\n-a\n@@ c\n+d\n*** End of File\n*** End Patch" =
        some twoChunksUpdate := by
    rw [patchLines, htext]
    decide +kernel
  refine (patchKeepsEdits_iff_unbroken hlines ?_).mpr ?_
  · rw [parseApplyPatch, hlines]
    decide +kernel
  · decide +kernel

/-- A line without its leading space ends the chunk. -/
def brokenUpdate : List Line :=
  ["*** Update File: f", "@@", "-a", "+b", "c", "-d", "+e", "*** End Patch"].map String.toList

theorem not_patchKeepsEdits : ¬ ∀ input lines hunks, patchLines input = some lines →
    parseApplyPatch input = .ok hunks → PatchKeepsEdits lines hunks := by
  intro h
  have htext :
      "*** Begin Patch\n*** Update File: f\n@@\n-a\n+b\nc\n-d\n+e\n*** End Patch".toList = _ :=
    String.toList_ofList
  have hlines : patchLines
      "*** Begin Patch\n*** Update File: f\n@@\n-a\n+b\nc\n-d\n+e\n*** End Patch" =
        some brokenUpdate := by
    rw [patchLines, htext]
    decide +kernel
  have hhunks : parseDirectives brokenUpdate =
      .ok [.updateFile "f".toList none [⟨none, ["a".toList], ["b".toList], false⟩]] := by
    decide +kernel
  have hkeeps := h _ _ _ hlines (by
    rw [parseApplyPatch, hlines]
    dsimp only
    rw [hhunks]
    rfl)
  rw [forall₂_keepsEdits hhunks] at hkeeps
  exact absurd hkeeps (by decide +kernel)

/-! ### The lines of a chunk -/

lemma updateTails_suffix {tail : List Line} (h : tail ∈ updateTails lines) : tail <:+ lines := by
  fun_induction updateTails lines with
  | case1 => cases h
  | case2 => cases h
  | case3 => cases h
  | case4 line lines _ _ _ _ left hturn ih =>
    rcases List.mem_cons.mp h with rfl | h
    · exact takeMoveTo_suffix.trans (List.suffix_cons _ _)
    · exact (ih h).trans ((parseDirective_suffix hturn).trans (List.suffix_cons _ _))
  | case5 line lines _ _ left _ hturn ih =>
    exact (ih h).trans ((parseDirective_suffix hturn).trans (List.suffix_cons _ _))

/-- What a line says is an end of it. -/
lemma suffix_of_newContent {content : Line} (h : newContent line = some content) :
    content <:+ line := by
  unfold newContent at h
  split at h
  · cases h
    exact List.suffix_refl _
  · cases h
    exact List.suffix_cons _ _
  · cases h
    exact List.suffix_cons _ _
  · cases h

lemma exists_body {chunk : UpdateFileChunk} (h : List.Forall₂ IsBodyOf bodies chunks)
    (hchunk : chunk ∈ chunks) : ∃ body ∈ bodies, IsBodyOf body chunk := by
  induction h with
  | nil => cases hchunk
  | cons hbody _ ih =>
    rcases List.mem_cons.mp hchunk with rfl | hchunk
    · exact ⟨_, List.mem_cons_self, hbody⟩
    · obtain ⟨body, hmem, hbody⟩ := ih hchunk
      exact ⟨body, List.mem_cons_of_mem _ hmem, hbody⟩

/-- No new line of a chunk has a line feed: it is a part of a line of the patch. -/
theorem newline_notMem_newLines {path : Line} {moveTo : Option Line} {chunk : UpdateFileChunk}
    {content : Line} (hlines : patchLines input = some lines)
    (h : parseDirectives lines = .ok hunks)
    (hhunk : PatchHunk.updateFile path moveTo chunks ∈ hunks) (hchunk : chunk ∈ chunks)
    (hcontent : content ∈ chunk.newLines) : '\n' ∉ content := by
  have hmem : chunks ∈ hunks.filterMap PatchHunk.chunks? :=
    List.mem_filterMap.mpr ⟨_, hhunk, rfl⟩
  rw [filterMap_parseDirectives h] at hmem
  obtain ⟨tail, htail, rfl⟩ := List.mem_map.mp hmem
  obtain ⟨gone, bodies, htailLines, hgone, hbodies⟩ := exists_updateChunks true tail
  obtain ⟨body, hbody, -, hnew⟩ := exists_body hbodies hchunk
  rw [hnew] at hcontent
  obtain ⟨line, hline, hsays⟩ := List.mem_filterMap.mp hcontent
  have hinLines : line ∈ lines := by
    refine (updateTails_suffix htail).subset ?_
    rw [htailLines]
    exact List.mem_append_left _ (hgone.sublist.subset (List.mem_flatten.mpr ⟨body, hbody, hline⟩))
  have hinput : line ∈ LineLog.lines '\n' '\r' input.toList := by
    rw [patchLines] at hlines
    split at hlines
    · cases hlines
    · rename_i first rest hdrop
      cases hlines
      have hdropped : line ∈ first :: lines := List.mem_cons_of_mem _ hinLines
      rw [← hdrop] at hdropped
      exact (List.dropWhile_sublist _).subset hdropped
  exact fun hmem => LineLog.notMem_of_mem_lines hinput ((suffix_of_newContent hsays).subset hmem)

end Jcode
