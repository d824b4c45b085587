import Jcode.Replay.Timeline
import Mathlib.Data.List.Chain

/-!
# Edited timelines

`auto_edit_timeline` shortens the long gaps of a timeline: while a tool runs, between turns, before
the answer and behind a tool. What a rule cuts off is added to one shift, by which all later events
are moved.

A rule remembers where its gap begins, and cuts at the event where the gap ends. Where other events
lie inside the gap they are not moved, so the cut may be longer than what is left of it.
-/

namespace Jcode

namespace Replay

/-! ### The arithmetic -/

/-- `as i64` -/
def asI64 (x : Int) : Int := x.bmod (2 ^ 64)

/-- A result of `i64` arithmetic. An overflow panics where it is checked for, and wraps else. -/
def i64 (checks : Bool) (x : Int) : Option Int :=
  if -2 ^ 63 ≤ x ∧ x < 2 ^ 63 then some x else if checks then none else some (asI64 x)

def u32 (checks : Bool) (n : Nat) : Option Nat :=
  if n < 2 ^ 32 then some n else if checks then none else some (n % 2 ^ 32)

/-! ### The edit -/

structure AutoEditOpts where
  toolMaxMs : Nat
  gapMaxMs : Nat
  thinkMaxMs : Nat
  responseDelayMaxMs : Nat
deriving DecidableEq

def AutoEditOpts.default : AutoEditOpts where
  toolMaxMs := 800
  gapMaxMs := 2000
  thinkMaxMs := 1200
  responseDelayMaxMs := 1000

/-- Where the gaps of the rules begin, in original times. -/
structure Marks where
  toolDepth : Nat
  toolSpanStartT : Option Nat
  lastToolDoneT : Option Nat
  lastDoneT : Option Nat
  lastUserMsgT : Option Nat
deriving DecidableEq

/-- The new time is that of the event at hand. -/
structure EditState extends Marks where
  out : List TimelineEvent
  timeShift : Int
  newT : Nat
deriving DecidableEq

namespace EditState

def start : EditState where
  toolDepth := 0
  toolSpanStartT := none
  lastToolDoneT := none
  lastDoneT := none
  lastUserMsgT := none
  out := []
  timeShift := 0
  newT := 0

variable (checks : Bool) (opts : AutoEditOpts)

/-- `(orig_t as i64 + time_shift).max(0) as u64` -/
def move (s : EditState) (origT : Nat) : Option EditState :=
  (i64 checks (asI64 origT + s.timeShift)).map fun t => { s with newT := (max t 0).toNat }

/-- One rule: a gap since a mark is cut down to its maximum. -/
def cutGap (s : EditState) (max : Nat) (since : Option Nat) (origT : Nat) : Option EditState :=
  match since with
  | none => some s
  | some t =>
    let gap := origT - t
    if max < gap then
      (i64 checks (s.timeShift - asI64 (gap - max : Nat))).bind fun shift =>
        move checks { s with timeShift := shift } origT
    else some s

/-- The first later event ends the gap behind a tool. -/
def cutIdle (s : EditState) (origT : Nat) : Option EditState :=
  match s.lastToolDoneT with
  | none => some s
  | some toolDoneT =>
    if toolDoneT < origT then
      (s.cutGap checks opts.responseDelayMaxMs (some toolDoneT) origT).map fun s =>
        { s with lastToolDoneT := none }
    else some s

/-- `last_done_t.take()` -/
def cutDone (s : EditState) (origT : Nat) : Option EditState :=
  (s.cutGap checks opts.gapMaxMs s.lastDoneT origT).map fun s => { s with lastDoneT := none }

def cutResponse (s : EditState) (origT : Nat) : Option EditState :=
  (s.cutGap checks opts.responseDelayMaxMs s.lastUserMsgT origT).map fun s =>
    { s with lastUserMsgT := none }

def cutTool (s : EditState) (origT : Nat) : Option EditState :=
  (s.cutGap checks opts.toolMaxMs s.toolSpanStartT origT).map fun s =>
    { s with toolSpanStartT := none }

def push (s : EditState) (kind : TimelineEventKind) : EditState :=
  { s with out := s.out ++ [⟨s.newT, kind⟩] }

def edit (s : EditState) (event : TimelineEvent) : Option EditState :=
  (s.move checks event.t).bind fun s =>
    (s.cutIdle checks opts event.t).bind fun s =>
      match event.kind with
      | .thinking duration =>
        (s.cutDone checks opts event.t).bind fun s =>
          (s.cutResponse checks opts event.t).map fun s =>
            s.push (.thinking (min duration opts.thinkMaxMs))
      | .userMessage _ =>
        (s.cutDone checks opts event.t).map fun s =>
          push { s with lastUserMsgT := some event.t } event.kind
      | .toolStart _ _ =>
        let s := if s.toolDepth = 0 then { s with toolSpanStartT := some event.t } else s
        (u32 checks (s.toolDepth + 1)).map fun depth =>
          push { s with toolDepth := depth } event.kind
      | .toolDone _ _ _ =>
        let s := { s with toolDepth := s.toolDepth - 1 }
        if s.toolDepth = 0 then
          (s.cutTool checks opts event.t).map fun s =>
            push { s with lastToolDoneT := some event.t } event.kind
        else some (s.push event.kind)
      | .done => some (push { s with lastDoneT := some event.t } event.kind)
      | _ => some (s.push event.kind)

end EditState

def autoEditTimeline (checks : Bool) (opts : AutoEditOpts) (timeline : List TimelineEvent) :
    Option (List TimelineEvent) :=
  (timeline.foldlM (EditState.edit checks opts) .start).map EditState.out

/-! ### Cuts -/

/-- How much longer than its maximum the gap since a mark is. -/
def excess (max : Nat) (since : Option Nat) (origT : Nat) : Nat :=
  match since with
  | none => 0
  | some t => origT - t - max

namespace Marks

variable (checks : Bool) (opts : AutoEditOpts)

/-- A gap behind a tool that ends at the time. -/
def idleSince (m : Marks) (origT : Nat) : Option Nat := m.lastToolDoneT.filter (· < origT)

/-- What the rules cut off at an event. -/
def cut (m : Marks) (event : TimelineEvent) : Nat :=
  excess opts.responseDelayMaxMs (m.idleSince event.t) event.t +
    match event.kind with
    | .thinking _ =>
      excess opts.gapMaxMs m.lastDoneT event.t +
        excess opts.responseDelayMaxMs m.lastUserMsgT event.t
    | .userMessage _ => excess opts.gapMaxMs m.lastDoneT event.t
    | .toolDone _ _ _ =>
      if m.toolDepth - 1 = 0 then excess opts.toolMaxMs m.toolSpanStartT event.t else 0
    | _ => 0

/-- The marks behind an event. -/
def after (m : Marks) (event : TimelineEvent) : Option Marks :=
  let m := { m with lastToolDoneT := m.lastToolDoneT.filter (¬ · < event.t) }
  match event.kind with
  | .thinking _ => some { m with lastDoneT := none, lastUserMsgT := none }
  | .userMessage _ => some { m with lastDoneT := none, lastUserMsgT := some event.t }
  | .toolStart _ _ =>
    (u32 checks (m.toolDepth + 1)).map fun depth =>
      { m with
        toolDepth := depth
        toolSpanStartT := if m.toolDepth = 0 then some event.t else m.toolSpanStartT }
  | .toolDone _ _ _ =>
    if m.toolDepth - 1 = 0 then
      some { m with
        toolDepth := 0, toolSpanStartT := none, lastToolDoneT := some event.t }
    else some { m with toolDepth := m.toolDepth - 1 }
  | .done => some { m with lastDoneT := some event.t }
  | _ => some m

end Marks

/-- An event with what is cut off at it, and all that is cut off up to it. -/
structure CutEvent where
  event : TimelineEvent
  cut : Nat
  total : Nat
deriving DecidableEq

/-- The cuts of a timeline, by its original times alone. -/
def cutsFrom (checks : Bool) (opts : AutoEditOpts) (total : Nat) (m : Marks) :
    List TimelineEvent → Option (List CutEvent)
  | [] => some []
  | event :: events =>
    let cut := m.cut opts event
    (m.after checks event).bind fun m =>
      (cutsFrom checks opts (total + cut) m events).map (⟨event, cut, total + cut⟩ :: ·)

def cuts (checks : Bool) (opts : AutoEditOpts) (timeline : List TimelineEvent) :
    Option (List CutEvent) :=
  cutsFrom checks opts 0 EditState.start.toMarks timeline

variable {checks : Bool} {opts : AutoEditOpts}

/-! ### What a pair of events needs -/

/-- A sum of cuts that does not overflow, or may. -/
def Fine (checks : Bool) (total : Nat) : Prop := checks = true → total ≤ 2 ^ 63

instance (checks : Bool) (total : Nat) : Decidable (Fine checks total) :=
  inferInstanceAs (Decidable (_ → _))

/-- The time an event is moved to, before it is clamped. -/
def CutEvent.place (c : CutEvent) : Int := asI64 (c.event.t - c.total)

/-- Sums above `2 ^ 63` wrap. The cut fits by its remainder, and neither place runs over. -/
def FitsWrapped (a b : CutEvent) : Prop :=
  let gap : Int := b.event.t - a.event.t
  let cut : Int := (b.cut % 2 ^ 64 : Nat)
  if a.place ≤ 0 then cut - a.place ≤ gap + 2 ^ 63 ∨ 2 ^ 64 ≤ cut - a.place
  else cut ≤ gap ∧ a.place + (gap - cut) < 2 ^ 63

/-- The cut is no longer than the gap, or the event before it is at the start already. -/
def Fits (checks : Bool) (a b : CutEvent) : Prop :=
  if b.total ≤ 2 ^ 63 then b.cut ≤ b.event.t - a.event.t ∨ a.event.t ≤ a.total
  else checks = false ∧ FitsWrapped a b

instance (a b : CutEvent) : Decidable (FitsWrapped a b) := by
  delta FitsWrapped; infer_instance

instance (checks : Bool) (a b : CutEvent) : Decidable (Fits checks a b) := by
  delta Fits; infer_instance

/-- The duration of a thinking is capped. -/
def capped (opts : AutoEditOpts) (kind : TimelineEventKind) : TimelineEventKind :=
  match kind with
  | .thinking duration => .thinking (min duration opts.thinkMaxMs)
  | _ => kind

/-- Two events behind each other with their new times: in order, and at most as far apart. -/
def Closer (x y : TimelineEvent × TimelineEvent) : Prop :=
  x.2.t ≤ y.2.t ∧ y.2.t - x.2.t ≤ y.1.t - x.1.t

instance (x y : TimelineEvent × TimelineEvent) : Decidable (Closer x y) :=
  inferInstanceAs (Decidable (_ ∧ _))

/-- There is a result, with the same events, and with gaps that are no longer. -/
def Compresses (checks : Bool) (opts : AutoEditOpts) (timeline : List TimelineEvent) : Prop :=
  ∃ out, autoEditTimeline checks opts timeline = some out ∧
    out.map (·.kind) = timeline.map (fun event => capped opts event.kind) ∧
      (timeline.zip out).IsChain Closer

/-! ### Arithmetic that wraps -/

/-- A multiple of `2 ^ 64` is taken off, and what is left is in range. -/
lemma asI64_spec (x : Int) :
    ∃ k, asI64 x = x - 2 ^ 64 * k ∧ -2 ^ 63 ≤ asI64 x ∧ asI64 x < 2 ^ 63 := by
  refine ⟨x.bdiv (2 ^ 64), ?_, Int.le_bmod (by decide), Int.bmod_lt (by decide)⟩
  have h := Int.bmod_eq_self_sub_mul_bdiv x (2 ^ 64)
  rw [Int.natCast_pow] at h
  exact h

lemma asI64_of_lt {n : Nat} (hn : n < 2 ^ 63) : asI64 n = n := by
  obtain ⟨k, h⟩ := asI64_spec n
  omega

lemma i64_eq_some {x : Int} (hx : -2 ^ 63 ≤ x ∧ x < 2 ^ 63 ∨ checks = false) :
    i64 checks x = some (asI64 x) := by
  obtain ⟨k, h⟩ := asI64_spec x
  rw [i64]
  split
  next => congr 1; omega
  next hout => rw [hx.resolve_left hout]; rfl

lemma i64_eq_none {x : Int} (hx : x < -2 ^ 63) : i64 true x = none := by
  rw [i64, if_neg (by omega), if_pos rfl]

/-- The shift behind a sum of cuts. -/
def shiftBy (total : Nat) : Int := asI64 (-total)

/-- The value, unless the sum overflows. -/
def ifFine {α : Type} (checks : Bool) (total : Nat) (a : α) : Option α :=
  if Fine checks total then some a else none

lemma ifFine_of_fine {α : Type} {total : Nat} (hf : Fine checks total) (a : α) :
    ifFine checks total a = some a := if_pos hf

lemma Fine.of_le {total total' : Nat} (hf : Fine checks total') (hle : total ≤ total') :
    Fine checks total := fun hc => hle.trans (hf hc)

lemma ifFine_map {α β : Type} (total : Nat) (a : α) (f : α → β) :
    (ifFine checks total a).map f = ifFine checks total (f a) := by
  unfold ifFine
  split <;> rfl

/-- Of two sums it is the later one that counts. -/
lemma ifFine_bind {α β : Type} {total total' : Nat} (hle : total ≤ total') (a : α)
    {f : α → Option β} {b : β} (hf : Fine checks total → f a = ifFine checks total' b) :
    (ifFine checks total a).bind f = ifFine checks total' b := by
  by_cases h : Fine checks total
  · rw [ifFine_of_fine h]
    exact hf h
  · simp [ifFine, h, mt (Fine.of_le · hle) h]

lemma i64_shiftBy_sub {total cut : Nat} (hf : Fine checks total) (hcut : cut < 2 ^ 63) :
    i64 checks (shiftBy total - asI64 cut) =
      ifFine checks (total + cut) (shiftBy (total + cut)) := by
  obtain ⟨i, hi⟩ := asI64_spec (-total)
  obtain ⟨j, hj⟩ := asI64_spec (-(total + cut : Nat))
  obtain ⟨k, hk⟩ := asI64_spec (asI64 (-total) - cut)
  rw [asI64_of_lt hcut, ifFine, shiftBy, shiftBy]
  cases checks with
  | false =>
    rw [i64_eq_some (.inr rfl), if_pos (by simp [Fine])]
    congr 1
    omega
  | true =>
    have htotal : total ≤ 2 ^ 63 := hf rfl
    by_cases h : total + cut ≤ 2 ^ 63
    · have hfine : Fine true (total + cut) := fun _ => h
      rw [i64_eq_some (by omega), if_pos hfine]
      congr 1
      omega
    · have hfine : ¬Fine true (total + cut) := fun hf => h (hf rfl)
      rw [i64_eq_none (by omega), if_neg hfine]

lemma i64_add_shiftBy {total t : Nat} (hf : Fine checks total) (ht : t < 2 ^ 63) :
    i64 checks (asI64 t + shiftBy total) = some (asI64 (t - total)) := by
  obtain ⟨i, hi⟩ := asI64_spec (-total)
  obtain ⟨j, hj⟩ := asI64_spec (t - total)
  obtain ⟨k, hk⟩ := asI64_spec (t + asI64 (-total))
  rw [asI64_of_lt ht, shiftBy, i64_eq_some]
  · congr 1
    omega
  · cases checks with
    | false => exact .inr rfl
    | true =>
      have htotal : total ≤ 2 ^ 63 := hf rfl
      omega

/-! ### The edit by its cuts -/

lemma excess_le (max : Nat) (since : Option Nat) (origT : Nat) :
    excess max since origT ≤ origT := by
  cases since with
  | none => exact Nat.zero_le _
  | some t => rw [excess]; omega

namespace EditState

/-- The state at an event, with a sum cut off. -/
def placed (m : Marks) (out : List TimelineEvent) (total origT : Nat) : EditState where
  toMarks := m
  out := out
  timeShift := shiftBy total
  newT := (max (asI64 (origT - total)) 0).toNat

variable {m : Marks} {out : List TimelineEvent} {total origT : Nat}

lemma move_eq {s : EditState} (hs : s.timeShift = shiftBy total) (hf : Fine checks total)
    (ht : origT < 2 ^ 63) : s.move checks origT = some (placed s.toMarks s.out total origT) := by
  rw [move, hs, i64_add_shiftBy hf ht, placed, ← hs]
  rfl

lemma cutGap_eq (hf : Fine checks total) (ht : origT < 2 ^ 63) (max : Nat)
    (since : Option Nat) :
    (placed m out total origT).cutGap checks max since origT =
      ifFine checks (total + excess max since origT)
        (placed m out (total + excess max since origT) origT) := by
  have hle := excess_le max since origT
  cases since with
  | none => exact (ifFine_of_fine hf _).symm
  | some t =>
    simp only [cutGap]
    rw [excess] at *
    split
    next =>
      simp only [placed]
      rw [i64_shiftBy_sub hf (by omega)]
      exact ifFine_bind (Nat.le_refl _) _ fun hf => by
        rw [move_eq rfl hf ht, ifFine_of_fine hf, placed]
    next h =>
      have h0 : origT - t - max = 0 := by omega
      rw [h0, Nat.add_zero, ifFine_of_fine hf]

lemma cutIdle_eq (hf : Fine checks total) (ht : origT < 2 ^ 63) :
    (placed m out total origT).cutIdle checks opts origT =
      ifFine checks (total + excess opts.responseDelayMaxMs (m.idleSince origT) origT)
        (placed { m with lastToolDoneT := m.lastToolDoneT.filter (¬ · < origT) } out
          (total + excess opts.responseDelayMaxMs (m.idleSince origT) origT) origT) := by
  obtain ⟨toolDepth, toolSpanStartT, lastToolDoneT, lastDoneT, lastUserMsgT⟩ := m
  rcases lastToolDoneT with _ | toolDoneT
  · exact (ifFine_of_fine hf _).symm
  · by_cases hlt : toolDoneT < origT
    · have hidle : (some toolDoneT).filter (fun t => decide (t < origT)) = some toolDoneT :=
        Option.filter_some_pos (by simpa using hlt)
      have hleft : (some toolDoneT).filter (fun t => decide ¬t < origT) = none :=
        Option.filter_some_neg (by simpa using hlt)
      simp only [Marks.idleSince, hidle, hleft]
      rw [cutIdle]
      simp only [placed, hlt, if_true]
      change Option.map _ (cutGap checks (placed _ out total origT) _ _ origT) = _
      rw [cutGap_eq hf ht, ifFine_map]
      rfl
    · have hidle : (some toolDoneT).filter (fun t => decide (t < origT)) = none :=
        Option.filter_some_neg (by simpa using hlt)
      have hleft : (some toolDoneT).filter (fun t => decide ¬t < origT) = some toolDoneT :=
        Option.filter_some_pos (by simpa using hlt)
      simp only [Marks.idleSince, hidle, hleft]
      rw [cutIdle]
      simp only [placed, hlt, if_false]
      exact (ifFine_of_fine hf _).symm

lemma cutDone_eq (hf : Fine checks total) (ht : origT < 2 ^ 63) :
    (placed m out total origT).cutDone checks opts origT =
      ifFine checks (total + excess opts.gapMaxMs m.lastDoneT origT)
        (placed { m with lastDoneT := none } out
          (total + excess opts.gapMaxMs m.lastDoneT origT) origT) :=
  (congrArg (Option.map _) (cutGap_eq hf ht _ _)).trans (ifFine_map _ _ _)

lemma cutResponse_eq (hf : Fine checks total) (ht : origT < 2 ^ 63) :
    (placed m out total origT).cutResponse checks opts origT =
      ifFine checks (total + excess opts.responseDelayMaxMs m.lastUserMsgT origT)
        (placed { m with lastUserMsgT := none } out
          (total + excess opts.responseDelayMaxMs m.lastUserMsgT origT) origT) :=
  (congrArg (Option.map _) (cutGap_eq hf ht _ _)).trans (ifFine_map _ _ _)

lemma cutTool_eq (hf : Fine checks total) (ht : origT < 2 ^ 63) :
    (placed m out total origT).cutTool checks opts origT =
      ifFine checks (total + excess opts.toolMaxMs m.toolSpanStartT origT)
        (placed { m with toolSpanStartT := none } out
          (total + excess opts.toolMaxMs m.toolSpanStartT origT) origT) :=
  (congrArg (Option.map _) (cutGap_eq hf ht _ _)).trans (ifFine_map _ _ _)

/-- An event moves the marks, and is placed by the sum of the cuts up to it. -/
lemma edit_eq {s : EditState} {event : TimelineEvent} (hs : s.timeShift = shiftBy total)
    (hf : Fine checks total) (ht : event.t < 2 ^ 63) :
    s.edit checks opts event =
      (s.toMarks.after checks event).bind fun m =>
        ifFine checks (total + s.toMarks.cut opts event)
          (push (placed m s.out (total + s.toMarks.cut opts event) event.t)
            (capped opts event.kind)) := by
  rw [edit, move_eq hs hf ht, Option.bind_some, cutIdle_eq hf ht]
  obtain ⟨t, kind⟩ := event
  cases kind with
  | thinking duration =>
    simp only [Marks.cut, Marks.after, capped, Option.bind_some, ← Nat.add_assoc]
    refine ifFine_bind ((Nat.le_add_right _ _).trans (Nat.le_add_right _ _)) _ fun hf => ?_
    rw [cutDone_eq hf ht]
    refine ifFine_bind (Nat.le_add_right _ _) _ fun hf => ?_
    rw [cutResponse_eq hf ht, ifFine_map]
  | userMessage text =>
    simp only [Marks.cut, Marks.after, capped, Option.bind_some, ← Nat.add_assoc]
    refine ifFine_bind (Nat.le_add_right _ _) _ fun hf => ?_
    rw [cutDone_eq hf ht, ifFine_map]
    rfl
  | toolStart name input =>
    simp only [Marks.cut, Marks.after, capped, Nat.add_zero]
    rw [ifFine, Option.bind_map]
    split
    next hf =>
      simp only [placed, Option.bind_some]
      by_cases hdepth : s.toolDepth = 0
      · simp only [hdepth, if_true]
        cases u32 checks (0 + 1) <;> simp [ifFine, hf, push]
      · simp only [hdepth, if_false]
        cases u32 checks (s.toolDepth + 1) <;> simp [ifFine, hf, push]
    next hf => cases u32 checks (s.toolDepth + 1) <;> simp [ifFine, hf]
  | toolDone name output isError =>
    simp only [Marks.cut, Marks.after, capped]
    by_cases hdepth : s.toolDepth - 1 = 0
    · simp only [hdepth, if_true, Option.bind_some, ← Nat.add_assoc]
      refine ifFine_bind (Nat.le_add_right _ _) _ fun hf => ?_
      let m : Marks := { s.toMarks with
        toolDepth := 0, lastToolDoneT := s.lastToolDoneT.filter (¬ · < t) }
      have htool : (placed m s.out _ t).cutTool checks opts t = _ := cutTool_eq hf ht
      simp only [placed, hdepth, if_true] at htool ⊢
      rw [htool, ifFine_map]
    · simp only [hdepth, if_false, Option.bind_some, Nat.add_zero]
      refine ifFine_bind (Nat.le_refl _) _ fun hf => ?_
      rw [ifFine_of_fine hf]
      simp only [placed, hdepth, if_false]
  | done =>
    simp only [Marks.cut, Marks.after, capped, Option.bind_some, Nat.add_zero]
    exact ifFine_bind (Nat.le_refl _) _ fun hf => (ifFine_of_fine hf _).symm
  | _ =>
    simp only [Marks.cut, Marks.after, capped, Option.bind_some, Nat.add_zero]
    exact ifFine_bind (Nat.le_refl _) _ fun hf => (ifFine_of_fine hf _).symm

end EditState

/-! ### Runs -/

/-- An event where its cuts place it. -/
def CutEvent.shown (opts : AutoEditOpts) (c : CutEvent) : TimelineEvent :=
  ⟨(max c.place 0).toNat, capped opts c.event.kind⟩

/-- The events are placed one by one, as long as no sum overflows. -/
lemma foldlM_edit {timeline : List TimelineEvent} (ht : ∀ event ∈ timeline, event.t < 2 ^ 63)
    {s : EditState} {total : Nat} (hs : s.timeShift = shiftBy total) (hf : Fine checks total) :
    (timeline.foldlM (EditState.edit checks opts) s).map EditState.out =
      ((cutsFrom checks opts total s.toMarks timeline).filter fun cs =>
        ∀ c ∈ cs, Fine checks c.total).map fun cs => s.out ++ cs.map (CutEvent.shown opts) := by
  induction timeline generalizing s total with
  | nil => simp [cutsFrom]
  | cons event timeline ih =>
    rw [List.forall_mem_cons] at ht
    rw [List.foldlM_cons, EditState.edit_eq hs hf ht.1, cutsFrom]
    cases hm : s.toMarks.after checks event with
    | none => rfl
    | some m =>
      by_cases hf : Fine checks (total + s.toMarks.cut opts event)
      · simp only [ifFine_of_fine hf, Option.bind_some, bind]
        rw [ih ht.2 rfl hf]
        simp only [EditState.push, EditState.placed]
        cases cutsFrom checks opts (total + s.toMarks.cut opts event) m timeline with
        | none => rfl
        | some cs =>
          simp [Option.filter, hf, CutEvent.shown, CutEvent.place]
      · cases cutsFrom checks opts (total + s.toMarks.cut opts event) m timeline <;>
          simp [ifFine, hf]

lemma autoEditTimeline_eq {timeline : List TimelineEvent}
    (ht : ∀ event ∈ timeline, event.t < 2 ^ 63) :
    autoEditTimeline checks opts timeline =
      ((cuts checks opts timeline).filter fun cs => ∀ c ∈ cs, Fine checks c.total).map fun cs =>
        cs.map (CutEvent.shown opts) :=
  foldlM_edit ht rfl fun _ => Nat.zero_le _

/-- The cuts are those of the events, and their sums add up. -/
lemma cutsFrom_eq_some {timeline : List TimelineEvent} {total : Nat} {m : Marks}
    {cs : List CutEvent} (h : cutsFrom checks opts total m timeline = some cs) :
    cs.map CutEvent.event = timeline ∧
      (∀ c ∈ cs.head?, c.cut = m.cut opts c.event ∧ c.total = total + c.cut) ∧
        cs.IsChain fun a b => b.total = a.total + b.cut := by
  induction timeline generalizing total m cs with
  | nil =>
    cases h
    simp
  | cons event timeline ih =>
    simp only [cutsFrom, Option.bind_eq_some_iff, Option.map_eq_some_iff] at h
    obtain ⟨m', -, cs, hcs, rfl⟩ := h
    obtain ⟨hevents, hhead, hchain⟩ := ih hcs
    refine ⟨by rw [List.map_cons, hevents], by simp, ?_⟩
    rw [List.isChain_cons]
    exact ⟨fun c hc => (hhead c hc).2, hchain⟩

/-- No gap has begun at the first event. -/
lemma cut_start (event : TimelineEvent) : EditState.start.toMarks.cut opts event = 0 := by
  obtain ⟨t, kind⟩ := event
  cases kind <;> rfl

/-! ### Gaps -/

/-- Two events end up in order and no further apart where the cut between them fits. -/
lemma fits_iff {a b : CutEvent} (htotal : b.total = a.total + b.cut)
    (ht : a.event.t ≤ b.event.t) (hb : b.event.t < 2 ^ 63) :
    Fits checks a b ↔
      Fine checks b.total ∧ Closer (a.event, a.shown opts) (b.event, b.shown opts) := by
  obtain ⟨i, hi⟩ := asI64_spec (a.event.t - a.total)
  obtain ⟨j, hj⟩ := asI64_spec (b.event.t - b.total)
  rw [← CutEvent.place] at hi hj
  simp only [Fits, Fine, Closer, CutEvent.shown]
  split
  · omega
  · cases checks with
    | false =>
      simp only [FitsWrapped, true_and, Bool.false_eq_true, false_imp_iff]
      split <;> omega
    | true =>
      simp only [Bool.true_eq_false, false_and, true_imp_iff, false_iff, not_and]
      omega

/-- A chain whose pairs all have a property may use it. -/
lemma isChain_congr {α : Type} {R Q S : α → α → Prop} {l : List α} (h : l.IsChain S)
    (hiff : ∀ a b, S a b → (R a b ↔ Q a b)) : l.IsChain R ↔ l.IsChain Q := by
  induction h with
  | nil => simp
  | singleton a => simp
  | cons_cons hS _ ih => rw [List.isChain_cons_cons, List.isChain_cons_cons, hiff _ _ hS, ih]

/-- What holds of the first element, and goes on along the chain, holds of all. -/
lemma isChain_and {α : Type} {P : α → Prop} {R : α → α → Prop} {l : List α}
    (h : ∀ a ∈ l.head?, P a) :
    (l.IsChain fun a b => P b ∧ R a b) ↔ (∀ a ∈ l, P a) ∧ l.IsChain R := by
  induction l with
  | nil => simp
  | cons a l ih =>
    have ha : P a := h a rfl
    rw [List.isChain_cons, List.isChain_cons, List.forall_mem_cons]
    constructor
    · intro ⟨hhead, htail⟩
      obtain ⟨hP, hR⟩ := (ih fun b hb => (hhead b hb).1).1 htail
      exact ⟨⟨ha, hP⟩, fun b hb => (hhead b hb).2, hR⟩
    · intro ⟨⟨_, hP⟩, hhead, hR⟩
      have hl : ∀ b ∈ l.head?, P b := fun b hb => hP b (List.mem_of_mem_head? hb)
      exact ⟨fun b hb => ⟨hl b hb, hhead b hb⟩, (ih hl).2 ⟨hP, hR⟩⟩

/-- The cuts fit where no sum overflows, and the events end up closer. -/
lemma isChain_fits_iff {cs : List CutEvent}
    (hordered : (cs.map CutEvent.event).Pairwise fun a b => a.t ≤ b.t)
    (ht : ∀ event ∈ cs.map CutEvent.event, event.t < 2 ^ 63)
    (hfine : ∀ c ∈ cs.head?, Fine checks c.total)
    (hchain : cs.IsChain fun a b => b.total = a.total + b.cut) :
    cs.IsChain (Fits checks) ↔
      (∀ c ∈ cs, Fine checks c.total) ∧
        ((cs.map CutEvent.event).zip (cs.map (CutEvent.shown opts))).IsChain Closer := by
  rw [List.forall_mem_map] at ht
  have htimes : cs.IsChain fun a b => a.event.t ≤ b.event.t ∧ b.event.t < 2 ^ 63 :=
    (List.pairwise_map.1 hordered).isChain.imp_of_mem_imp fun _ b _ hb hle => ⟨hle, ht b hb⟩
  have hboth : cs.IsChain fun a b =>
      b.total = a.total + b.cut ∧ a.event.t ≤ b.event.t ∧ b.event.t < 2 ^ 63 :=
    List.isChain_iff_getElem.2 fun i hi => ⟨hchain.getElem i hi, htimes.getElem i hi⟩
  rw [List.zip_map', List.isChain_map, ← isChain_and hfine]
  exact isChain_congr hboth fun a b ⟨htotal, hle, hlt⟩ => fits_iff htotal hle hlt

/-- The timeline is only compressed where each cut fits. -/
theorem compresses_iff {timeline : List TimelineEvent}
    (hordered : timeline.Pairwise fun a b => a.t ≤ b.t)
    (ht : ∀ event ∈ timeline, event.t < 2 ^ 63) :
    Compresses checks opts timeline ↔
      ∃ cs, cuts checks opts timeline = some cs ∧ cs.IsChain (Fits checks) := by
  rw [Compresses, autoEditTimeline_eq ht]
  cases hcs : cuts checks opts timeline with
  | none => simp
  | some cs =>
    obtain ⟨rfl, hhead, hchain⟩ := cutsFrom_eq_some hcs
    have hfine : ∀ c ∈ cs.head?, Fine checks c.total := by
      intro c hc
      obtain ⟨hcut, htotal⟩ := hhead c hc
      rw [htotal, hcut, cut_start]
      exact fun _ => Nat.zero_le _
    have hfits := @isChain_fits_iff checks opts cs hordered ht hfine hchain
    have hkinds : (cs.map (CutEvent.shown opts)).map (·.kind) =
        (cs.map CutEvent.event).map fun event => capped opts event.kind := by
      simp [CutEvent.shown]
    simp only [Option.some.injEq, exists_eq_left', hfits]
    simp [Option.filter, hkinds]

/-! ### Timelines -/

/-- A tool runs for ten seconds, and nothing else happens. -/
def toolSpan : List TimelineEvent :=
  [⟨0, .userMessage "hi"⟩, ⟨500, .thinking 1800⟩, ⟨1300, .streamText "Let me check." 80⟩,
    ⟨2000, .toolStart "file_read" "{}"⟩, ⟨12000, .toolDone "file_read" "ok" false⟩,
    ⟨16000, .streamText "Done!" 80⟩, ⟨17000, .done⟩]

theorem compresses_toolSpan : Compresses true .default toolSpan :=
  (compresses_iff (by decide) (by decide)).2 ⟨_, rfl, by decide⟩

/-- A line is streamed while the tool runs, and the tool is done later than it may be. -/
def streamedInside : List TimelineEvent :=
  [⟨0, .toolStart "bash" "{}"⟩, ⟨9000, .streamText "still running" 80⟩,
    ⟨10000, .toolDone "bash" "ok" false⟩]

/-- The tool is done before the line is streamed. -/
theorem not_compresses_streamedInside :
    streamedInside.Pairwise (fun a b => a.t ≤ b.t) ∧
      (∀ event ∈ streamedInside, event.t < 2 ^ 63) ∧
        ∀ checks, ¬Compresses checks .default streamedInside := by
  refine ⟨by decide, by decide, fun checks h => ?_⟩
  obtain ⟨out, hout, -, hcloser⟩ := h
  have heq : autoEditTimeline checks .default streamedInside =
      some [⟨0, .toolStart "bash" "{}"⟩, ⟨9000, .streamText "still running" 80⟩,
        ⟨800, .toolDone "bash" "ok" false⟩] := by
    cases checks <;> decide
  cases hout.symm.trans heq
  revert hcloser
  decide

end Replay

end Jcode
