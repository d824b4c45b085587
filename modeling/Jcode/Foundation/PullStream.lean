import Jcode.Foundation.Frames

/-!
# Streams that are pulled

A decoder over a list that arrives in chunks. Whenever it is asked for the next event it gives one
from its queue, else it handles the frames of its buffer until one of them gives an event, else it
reads another chunk. At the end of the chunks what the handler has kept is flushed.

However the list is cut into chunks, and whenever the decoder is asked, the events are those of
the frames in order.
-/

universe u v w x

/-- What is done with a frame: the event that is returned, the queue and the state. Here the
queue is empty when a frame is handled. -/
structure FrameHandler (σ : Type u) (α : Type v) (ε : Type w) where
  handle : σ → List ε → List α → Option ε × List ε × σ
  /-- What is flushed at the end. -/
  finish : σ → List ε × σ
  quiet : ∀ s frame, (handle s [] frame).1 = none → (handle s [] frame).2.1 = []
  finished : ∀ s, finish (finish s).2 = ([], (finish s).2)

/-- A decoder between two events. -/
structure PullState (σ : Type u) (α : Type v) (ε : Type w) where
  buffer : List α
  pending : List ε
  state : σ

namespace FrameHandler

variable {σ : Type u} {α : Type v} {ε : Type w} {γ : Type x} [DecidableEq α]
  (h : FrameHandler σ α ε) (sep : Separator α) (read : γ → List α)

/-- Handle frames until one of them gives an event. -/
def parseFrames (d : PullState σ α ε) : Option ε × PullState σ α ε :=
  match _hcut : sep.cut d.buffer with
  | none => (none, d)
  | some (frame, rest) =>
    match h.handle d.state d.pending frame with
    | (some event, pending, state) => (some event, ⟨rest, pending, state⟩)
    | (none, pending, state) => parseFrames ⟨rest, pending, state⟩
termination_by d.buffer.length
decreasing_by exact length_lt_of_splitFirst sep.ne_nil _hcut

def parseNext (d : PullState σ α ε) : Option ε × PullState σ α ε :=
  match d.pending with
  | event :: pending => (some event, { d with pending := pending })
  | [] => h.parseFrames sep d

/-- The next event, with the decoder and the chunks that it leaves. -/
def pollNext : List γ → PullState σ α ε → Option (ε × PullState σ α ε × List γ)
  | [], d =>
    match h.parseNext sep d with
    | (some event, d) => some (event, d, [])
    | (none, d) =>
      match d.pending ++ (h.finish d.state).1 with
      | event :: pending =>
        some (event, { d with pending := pending, state := (h.finish d.state).2 }, [])
      | [] => none
  | chunk :: chunks, d =>
    match h.parseNext sep d with
    | (some event, d) => some (event, d, chunk :: chunks)
    | (none, d) => pollNext chunks { d with buffer := d.buffer ++ read chunk }

/-- The decoder is asked for events until it has none. -/
inductive Emits : PullState σ α ε → List γ → List ε → Prop
  | done {d chunks} (hnext : h.pollNext sep read chunks d = none) : Emits d chunks []
  | next {d d' chunks chunks' event events}
      (hnext : h.pollNext sep read chunks d = some (event, d', chunks'))
      (hrest : Emits d' chunks' events) : Emits d chunks (event :: events)

/-! ### The events of the frames in order -/

def outputs : σ → List (List α) → List ε × σ
  | s, [] => ([], s)
  | s, frame :: frames =>
    let (event, queued, s) := h.handle s [] frame
    (event.toList ++ queued ++ (outputs s frames).1, (outputs s frames).2)

/-- The events of a whole list, to the flush at its end. -/
def decode (s : σ) (l : List α) : List ε :=
  (h.outputs s (sep.frames l).1).1 ++ (h.finish (h.outputs s (sep.frames l).1).2).1

/-- The events that are still to come when `more` is read. -/
def remaining (d : PullState σ α ε) (more : List α) : List ε :=
  d.pending ++ h.decode sep d.state (d.buffer ++ more)

variable {h sep read} {d : PullState σ α ε} {chunks : List γ} {events : List ε}

lemma decode_of_none {s : σ} {l : List α} (hcut : sep.cut l = none) :
    h.decode sep s l = (h.finish s).1 := by
  rw [decode, Separator.frames_of_none hcut]
  rfl

lemma decode_of_some {s : σ} {l frame rest : List α} (hcut : sep.cut l = some (frame, rest)) :
    h.decode sep s l = (h.handle s [] frame).1.toList ++ (h.handle s [] frame).2.1 ++
      h.decode sep (h.handle s [] frame).2.2 rest := by
  rw [decode, Separator.frames_of_some hcut, decode, outputs, List.append_assoc]

lemma parseFrames_of_cut_none (hcut : sep.cut d.buffer = none) :
    h.parseFrames sep d = (none, d) := by
  rw [parseFrames]
  split
  · rfl
  · rename_i heq
    cases hcut.symm.trans heq

lemma parseFrames_of_event {frame rest : List α} {event : ε}
    (hcut : sep.cut d.buffer = some (frame, rest))
    (hevent : (h.handle d.state d.pending frame).1 = some event) :
    h.parseFrames sep d = (some event, ⟨rest, (h.handle d.state d.pending frame).2.1,
      (h.handle d.state d.pending frame).2.2⟩) := by
  rw [parseFrames]
  split
  · rename_i heq
    cases hcut.symm.trans heq
  · rename_i heq
    cases hcut.symm.trans heq
    split
    · rename_i hhandle
      rw [hhandle] at hevent ⊢
      cases hevent
      rfl
    · rename_i hhandle
      rw [hhandle] at hevent
      cases hevent

lemma parseFrames_of_quiet {frame rest : List α} (hcut : sep.cut d.buffer = some (frame, rest))
    (hnone : (h.handle d.state d.pending frame).1 = none) :
    h.parseFrames sep d = h.parseFrames sep ⟨rest, (h.handle d.state d.pending frame).2.1,
      (h.handle d.state d.pending frame).2.2⟩ := by
  rw [parseFrames]
  split
  · rename_i heq
    cases hcut.symm.trans heq
  · rename_i heq
    cases hcut.symm.trans heq
    split
    · rename_i hhandle
      rw [hhandle] at hnone
      cases hnone
    · rename_i hhandle
      rw [hhandle]

/-- Handling frames takes the next event off the front of what is to come. If there is none, no
frame and no queued event is left. -/
lemma parseFrames_spec (hpending : d.pending = []) :
    (∀ more, h.remaining sep d more =
      (h.parseFrames sep d).1.toList ++ h.remaining sep (h.parseFrames sep d).2 more) ∧
    ((h.parseFrames sep d).1 = none →
      sep.cut (h.parseFrames sep d).2.buffer = none ∧ (h.parseFrames sep d).2.pending = []) := by
  obtain ⟨buffer, pending, s⟩ := d
  cases hpending
  induction buffer using Separator.frames_induction sep generalizing s with
  | rest buffer hcut =>
    rw [parseFrames_of_cut_none hcut]
    exact ⟨fun _ => rfl, fun _ => ⟨hcut, rfl⟩⟩
  | frame buffer frame rest hcut ih =>
    have hall (more : List α) : h.remaining sep ⟨buffer, [], s⟩ more =
        (h.handle s [] frame).1.toList ++ (h.handle s [] frame).2.1 ++
          h.decode sep (h.handle s [] frame).2.2 (rest ++ more) :=
      decode_of_some (Separator.cut_append hcut)
    cases hevent : (h.handle s [] frame).1 with
    | some event =>
      rw [parseFrames_of_event hcut hevent]
      refine ⟨fun more => ?_, fun hnone => (nomatch hnone)⟩
      rw [hall, hevent, List.append_assoc]
      rfl
    | none =>
      have hquiet := h.quiet s frame hevent
      rw [parseFrames_of_quiet hcut hevent, hquiet]
      refine ⟨fun more => ?_, (ih _).2⟩
      rw [hall, hevent, hquiet]
      exact (ih _).1 more

/-- The next event is taken off the front of what is to come. -/
lemma parseNext_spec (h : FrameHandler σ α ε) (sep : Separator α) (d : PullState σ α ε) :
    (∀ more, h.remaining sep d more =
      (h.parseNext sep d).1.toList ++ h.remaining sep (h.parseNext sep d).2 more) ∧
    ((h.parseNext sep d).1 = none →
      sep.cut (h.parseNext sep d).2.buffer = none ∧ (h.parseNext sep d).2.pending = []) := by
  rw [parseNext]
  split
  · rename_i event pending hpending
    refine ⟨fun more => ?_, fun hnone => (nomatch hnone)⟩
    rw [remaining, hpending]
    rfl
  · rename_i hpending
    exact parseFrames_spec hpending

lemma remaining_of_end (h : FrameHandler σ α ε) (hcut : sep.cut d.buffer = none) :
    h.remaining sep d [] = d.pending ++ (h.finish d.state).1 := by
  rw [remaining, List.append_nil, decode_of_none hcut]

lemma remaining_read (d : PullState σ α ε) (l more : List α) :
    h.remaining sep { d with buffer := d.buffer ++ l } more = h.remaining sep d (l ++ more) := by
  rw [remaining, remaining, List.append_assoc]

/-- What `poll_next` gives, against what is to come. -/
lemma pollNext_spec (h : FrameHandler σ α ε) (sep : Separator α) (read : γ → List α)
    (chunks : List γ) (d : PullState σ α ε) :
    match h.pollNext sep read chunks d with
    | none => h.remaining sep d (chunks.flatMap read) = []
    | some (event, d', chunks') => h.remaining sep d (chunks.flatMap read) =
        event :: h.remaining sep d' (chunks'.flatMap read) := by
  induction chunks generalizing d with
  | nil =>
    obtain ⟨hsplit, hempty⟩ := parseNext_spec h sep d
    rw [pollNext]
    rcases hnext : h.parseNext sep d with ⟨_ | event, d'⟩
    · rw [hnext] at hsplit hempty
      obtain ⟨hcut, hpending⟩ := hempty rfl
      have hall := (hsplit []).trans (remaining_of_end h hcut)
      dsimp only at hpending hall ⊢
      rw [hpending, List.nil_append] at hall ⊢
      cases hfinish : (h.finish d'.state).1 with
      | nil => exact hall.trans hfinish
      | cons event pending =>
        refine (hall.trans hfinish).trans (congrArg (event :: ·) ?_)
        -- what is flushed once is not flushed again
        have hend : h.remaining sep
            { d' with pending := pending, state := (h.finish d'.state).2 } [] =
              pending ++ (h.finish (h.finish d'.state).2).1 := remaining_of_end h hcut
        rw [List.flatMap_nil, hend, h.finished, List.append_nil]
    · rw [hnext] at hsplit
      exact hsplit []
  | cons chunk chunks ih =>
    obtain ⟨hsplit, -⟩ := parseNext_spec h sep d
    rw [pollNext]
    rcases hnext : h.parseNext sep d with ⟨_ | event, d'⟩
    · rw [hnext] at hsplit
      have hread := ih { d' with buffer := d'.buffer ++ read chunk }
      rw [remaining_read, ← List.flatMap_cons] at hread
      rw [hsplit]
      exact hread
    · rw [hnext] at hsplit
      exact hsplit _

lemma remaining_of_pollNext_none (hnext : h.pollNext sep read chunks d = none) :
    h.remaining sep d (chunks.flatMap read) = [] := by
  have hspec := pollNext_spec h sep read chunks d
  rwa [hnext] at hspec

lemma remaining_of_pollNext_some {d' : PullState σ α ε} {chunks' : List γ} {event : ε}
    (hnext : h.pollNext sep read chunks d = some (event, d', chunks')) :
    h.remaining sep d (chunks.flatMap read) =
      event :: h.remaining sep d' (chunks'.flatMap read) := by
  have hspec := pollNext_spec h sep read chunks d
  rwa [hnext] at hspec

/-- The events are those of the frames in order, whatever the chunks are. -/
theorem emits_iff :
    h.Emits sep read d chunks events ↔ events = h.remaining sep d (chunks.flatMap read) := by
  constructor
  · intro hemits
    induction hemits with
    | done hnext => exact (remaining_of_pollNext_none hnext).symm
    | next hnext _ ih => rw [ih, remaining_of_pollNext_some hnext]
  · rintro rfl
    -- every event that is given leaves one less to come
    induction hall : h.remaining sep d (chunks.flatMap read) generalizing d chunks with
    | nil =>
      cases hnext : h.pollNext sep read chunks d with
      | none => exact .done hnext
      | some next => cases hall.symm.trans (remaining_of_pollNext_some hnext)
    | cons event events ih =>
      cases hnext : h.pollNext sep read chunks d with
      | none => cases hall.symm.trans (remaining_of_pollNext_none hnext)
      | some next =>
        obtain ⟨rfl, hrest⟩ := List.cons.inj (hall.symm.trans (remaining_of_pollNext_some hnext))
        exact .next hnext (ih hrest.symm)

/-- What holds of all that is returned, queued and flushed holds of the events. -/
lemma forall_decode {P : ε → Prop}
    (hhandle : ∀ s frame, ∀ event ∈ (h.handle s [] frame).1.toList ++ (h.handle s [] frame).2.1,
      P event)
    (hfinish : ∀ s, ∀ event ∈ (h.finish s).1, P event) (s : σ) (l : List α) :
    ∀ event ∈ h.decode sep s l, P event := by
  induction l using Separator.frames_induction sep generalizing s with
  | rest l hcut =>
    rw [decode_of_none hcut]
    exact hfinish s
  | frame l frame rest hcut ih =>
    rw [decode_of_some hcut]
    intro event hmem
    rcases List.mem_append.mp hmem with hmem | hmem
    · exact hhandle s frame event hmem
    · exact ih _ event hmem

/-- From a fresh decoder on. -/
def initial (s : σ) : PullState σ α ε := ⟨[], [], s⟩

theorem emits_initial_iff {s : σ} :
    h.Emits sep read (initial s) chunks events ↔ events = h.decode sep s (chunks.flatMap read) :=
  emits_iff

end FrameHandler
