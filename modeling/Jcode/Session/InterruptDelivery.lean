import Jcode.Session.SoftInterrupts

/-!
# Every soft interrupt in one place

A message whose request has reported success is in the queue, in the file or in the transcript,
and in no two of them, except that the queue may be mirrored in the file by a snapshot. The file
is overwritten as a whole, so each overwrite has to know what is in it.
-/

namespace Jcode

open Schedule

/-- What the agent has taken from one place and not yet put into the next. -/
def InterruptPhase.inHand : InterruptPhase → List SoftInterruptMessage
  | .extending loaded => loaded
  | .injecting messages => messages
  | _ => []

/-- All messages that the agent has read. -/
def InterruptPhase.messages : InterruptPhase → List SoftInterruptMessage
  | .taking loaded | .extending loaded => loaded
  | .snapshotting pending => pending
  | .injecting messages => messages
  | .idle => []

namespace InterruptSystem

variable {s t : InterruptSystem} {m : InterruptMove} {x : SoftInterruptMessage}

def injected (s : InterruptSystem) : List SoftInterruptMessage := s.transcript.flatMap (·.parts)

/-- Once in the queue and nowhere else, but the last snapshot may have mirrored it in the file. -/
structure Queued (s : InterruptSystem) (x : SoftInterruptMessage) : Prop where
  queue : s.queue.count x = 1
  store : s.store.count x = 0 ∨ s.store.count x = 1 ∧ x ∈ s.mirrored
  injected : s.injected.count x = 0
  inHand : s.agent.inHand.count x = 0

/-- Not in the queue, and once in one other place. -/
structure Elsewhere (s : InterruptSystem) (x : SoftInterruptMessage) : Prop where
  queue : s.queue.count x = 0
  once : s.store.count x + s.injected.count x + s.agent.inHand.count x = 1

/-- Every accepted message is in exactly one place, but for the mirror of a snapshot. -/
def OnePlace (s : InterruptSystem) : Prop :=
  ∀ x ∈ s.accepted, s.Queued x ∨ s.Elsewhere x

/-- Outside of the queue, the file holds what was read from it. -/
def Unchanged (s : InterruptSystem) (read : List SoftInterruptMessage) : Prop :=
  ∀ x ∈ s.accepted, x ∉ s.queue → read.count x = s.store.count x

/-- An append writes back the file as it is, up to mirrored messages; a restore removes the file
that it has read, and nothing of it is in the queue; a snapshot overwrites a file that holds
nothing but messages of the queue; none of them is in the file when the queue is injected, and all
of them are when the agent ends. -/
def KeepsInOnePlace (s : InterruptSystem) : InterruptMove → Prop
  | .writeAppend n true => ∀ message current, s.appends n = .loaded message current →
      s.Unchanged current ∧ ∀ x ∈ s.queue, x ∈ current → current.count x = 1 ∧ x ∈ s.mirrored
  | .removeTaken true => ∀ loaded, s.agent = .taking loaded →
      s.Unchanged loaded ∧ ∀ x ∈ s.queue, x ∉ loaded
  | .removeTaken false => ∀ loaded, s.agent = .taking loaded → loaded = []
  | .writeSnapshot true => ∀ x ∈ s.store, x ∈ s.queue
  | .drainQueue => ∀ x ∈ s.queue, x ∉ s.store
  | .drop => ∀ x ∈ s.queue, x ∈ s.store
  | _ => True

/-! ### What is known of the messages -/

/-- Whatever is anywhere has been accepted, under its number, and what is still to be appended has
not. -/
structure Known (s : InterruptSystem) : Prop where
  accepted : ∀ x, x ∈ s.queue ∨ x ∈ s.store ∨ x ∈ s.injected ∨ x ∈ s.agent.messages →
    x ∈ s.accepted
  numbered : ∀ x ∈ s.accepted, x.serial < s.issued
  started : ∀ n x, s.appends n = .started x → x.serial = n ∧ n < s.issued ∧ x ∉ s.accepted
  loaded : ∀ n x current, s.appends n = .loaded x current →
    x.serial = n ∧ n < s.issued ∧ x ∉ s.accepted ∧ ∀ y ∈ current, y ∈ s.accepted
  snapshot : ∀ pending, s.agent = .snapshotting pending → pending <+: s.queue

lemma inHand_subset_messages {phase : InterruptPhase} (h : x ∈ phase.inHand) :
    x ∈ phase.messages := by
  cases phase <;> first | exact h | cases h

/-- A move of the agent only moves messages around. -/
lemma Known.of_agent (h : Known s) (happends : t.appends = s.appends)
    (hissued : t.issued = s.issued)
    (haccepted : t.accepted = s.accepted)
    (hknown : ∀ x, x ∈ t.queue ∨ x ∈ t.store ∨ x ∈ t.injected ∨ x ∈ t.agent.messages →
      x ∈ s.queue ∨ x ∈ s.store ∨ x ∈ s.injected ∨ x ∈ s.agent.messages)
    (hsnapshot : ∀ pending, t.agent = .snapshotting pending → pending <+: t.queue) : Known t where
  accepted x hx := haccepted ▸ h.accepted x (hknown x hx)
  numbered := by simpa only [haccepted, hissued] using h.numbered
  started := by simpa only [haccepted, hissued, happends] using h.started
  loaded := by simpa only [haccepted, hissued, happends] using h.loaded
  snapshot := hsnapshot

lemma Known.enqueue (h : Known s) (hx : x.serial = s.issued) :
    Known { s with
      queue := s.queue ++ [x]
      issued := s.issued + 1
      accepted := x :: s.accepted } := by
  have hnew {n : Nat} {y : SoftInterruptMessage} (hserial : y.serial = n) (hn : n < s.issued)
      (hy : y ∉ s.accepted) : y.serial = n ∧ n < s.issued + 1 ∧ y ∉ x :: s.accepted := by
    refine ⟨hserial, Nat.lt_succ_of_lt hn, fun hmem => ?_⟩
    rcases List.mem_cons.mp hmem with rfl | hmem
    · omega
    · exact hy hmem
  refine ⟨fun y hy => ?_, fun y hy => ?_, fun n y hy => ?_, fun n y current hy => ?_,
    fun pending hagent => (h.snapshot pending hagent).trans (List.prefix_append _ _)⟩
  · simp only [List.mem_append, List.mem_singleton] at hy
    rcases hy with (hy | rfl) | hy
    · exact List.mem_cons_of_mem _ (h.accepted y (.inl hy))
    · exact List.mem_cons_self
    · exact List.mem_cons_of_mem _ (h.accepted y (.inr hy))
  · rcases List.mem_cons.mp hy with rfl | hy
    · exact hx ▸ Nat.lt_succ_self _
    · exact Nat.lt_succ_of_lt (h.numbered y hy)
  · obtain ⟨hserial, hn, hfresh⟩ := h.started n y hy
    exact hnew hserial hn hfresh
  · obtain ⟨hserial, hn, hfresh, hcurrent⟩ := h.loaded n y current hy
    obtain ⟨hserial, hn, hfresh⟩ := hnew hserial hn hfresh
    exact ⟨hserial, hn, hfresh, fun z hz => List.mem_cons_of_mem _ (hcurrent z hz)⟩

lemma Known.startAppend (h : Known s) (hx : x.serial = s.issued) :
    Known { s.setAppend s.issued (.started x) with issued := s.issued + 1 } := by
  refine ⟨h.accepted, fun y hy => Nat.lt_succ_of_lt (h.numbered y hy), fun n y hy => ?_,
    fun n y current hy => ?_, h.snapshot⟩
  · by_cases hn : n = s.issued
    · subst hn
      simp only [setAppend, Function.update_self, AppendPhase.started.injEq] at hy
      subst hy
      refine ⟨hx, Nat.lt_succ_self _, fun hmem => ?_⟩
      exact absurd (h.numbered x hmem) (hx ▸ Nat.lt_irrefl _)
    · simp only [setAppend, Function.update_of_ne hn] at hy
      obtain ⟨hserial, hlt, hfresh⟩ := h.started n y hy
      exact ⟨hserial, Nat.lt_succ_of_lt hlt, hfresh⟩
  · by_cases hn : n = s.issued
    · subst hn
      simp [setAppend] at hy
    · simp only [setAppend, Function.update_of_ne hn] at hy
      obtain ⟨hserial, hlt, hfresh⟩ := h.loaded n y current hy
      exact ⟨hserial, Nat.lt_succ_of_lt hlt, hfresh⟩

/-- An append that goes on from where it stands or gives up. -/
lemma Known.setAppend (h : Known s) {n : Nat} {phase : AppendPhase}
    (hphase : phase = .none ∨ ∃ message, s.appends n = .started message ∧
      phase = .loaded message s.store) : Known (s.setAppend n phase) := by
  refine ⟨h.accepted, h.numbered, fun n' y hy => ?_, fun n' y current hy => ?_, h.snapshot⟩
  · by_cases hn : n' = n
    · subst hn
      simp only [InterruptSystem.setAppend, Function.update_self] at hy
      rcases hphase with rfl | ⟨message, -, rfl⟩ <;> cases hy
    · simp only [InterruptSystem.setAppend, Function.update_of_ne hn] at hy
      exact h.started n' y hy
  · by_cases hn : n' = n
    · subst hn
      simp only [InterruptSystem.setAppend, Function.update_self] at hy
      rcases hphase with rfl | ⟨message, hstarted, rfl⟩
      · cases hy
      · cases hy
        obtain ⟨hserial, hlt, hfresh⟩ := h.started n' y hstarted
        exact ⟨hserial, hlt, hfresh, fun z hz => h.accepted z (.inr (.inl hz))⟩
    · simp only [InterruptSystem.setAppend, Function.update_of_ne hn] at hy
      exact h.loaded n' y current hy

lemma Known.writeAppend (h : Known s) {n : Nat} {current : List SoftInterruptMessage}
    (hloaded : s.appends n = .loaded x current) :
    Known { s.setAppend n .none with
      store := current ++ [x]
      accepted := x :: s.accepted } := by
  obtain ⟨hserial, hlt, -, hcurrent⟩ := h.loaded n x current hloaded
  have hquit : Known (s.setAppend n .none) := h.setAppend (.inl rfl)
  have hother {n' : Nat} {y : SoftInterruptMessage} (hne : n' ≠ n) (hy : y.serial = n')
      (hfresh : y ∉ s.accepted) : y ∉ x :: s.accepted := by
    intro hmem
    rcases List.mem_cons.mp hmem with rfl | hmem
    · exact hne (hy.symm.trans hserial)
    · exact hfresh hmem
  have hne {n' : Nat} (h' : (s.setAppend n .none).appends n' ≠ .none) : n' ≠ n := by
    rintro rfl
    exact h' (by simp [InterruptSystem.setAppend])
  refine ⟨fun y hy => ?_, fun y hy => ?_, fun n' y hy => ?_, fun n' y current' hy => ?_,
    hquit.snapshot⟩
  · simp only [List.mem_append, List.mem_singleton] at hy
    rcases hy with hy | (hy | rfl) | hy
    · exact List.mem_cons_of_mem _ (h.accepted y (.inl hy))
    · exact List.mem_cons_of_mem _ (hcurrent y hy)
    · exact List.mem_cons_self
    · exact List.mem_cons_of_mem _ (h.accepted y (.inr (.inr hy)))
  · rcases List.mem_cons.mp hy with rfl | hy
    · exact hserial ▸ hlt
    · exact h.numbered y hy
  · obtain ⟨hserial', hlt', hfresh⟩ := hquit.started n' y hy
    exact ⟨hserial', hlt', hother (hne (by rw [hy]; nofun)) hserial' hfresh⟩
  · obtain ⟨hserial', hlt', hfresh, hcurrent'⟩ := hquit.loaded n' y current' hy
    exact ⟨hserial', hlt', hother (hne (by rw [hy]; nofun)) hserial' hfresh,
      fun z hz => List.mem_cons_of_mem _ (hcurrent' z hz)⟩

/-! ### What keeps a message in one place -/

lemma OnePlace.queued (h : OnePlace s) (hx : x ∈ s.accepted) (hqueue : x ∈ s.queue) :
    s.Queued x := by
  refine (h x hx).resolve_right fun helse => ?_
  exact List.count_eq_zero.mp helse.queue hqueue

lemma OnePlace.elsewhere (h : OnePlace s) (hx : x ∈ s.accepted) (hqueue : x ∉ s.queue) :
    s.Elsewhere x := by
  refine (h x hx).resolve_left fun hqueued => ?_
  have hone := hqueued.queue
  rw [List.count_eq_zero.mpr hqueue] at hone
  cases hone

/-- A message that has not been accepted yet is nowhere. -/
lemma Known.count_eq_zero (h : Known s) (hx : x ∉ s.accepted) :
    s.queue.count x = 0 ∧ s.store.count x = 0 ∧ s.injected.count x = 0 ∧
      s.agent.inHand.count x = 0 := by
  refine ⟨List.count_eq_zero.mpr fun hmem => hx (h.accepted x (.inl hmem)),
    List.count_eq_zero.mpr fun hmem => hx (h.accepted x (.inr (.inl hmem))),
    List.count_eq_zero.mpr fun hmem => hx (h.accepted x (.inr (.inr (.inl hmem)))),
    List.count_eq_zero.mpr fun hmem => hx (h.accepted x (.inr (.inr (.inr ?_))))⟩
  exact inHand_subset_messages hmem

/-- Moves that leave every message where it is. -/
lemma OnePlace.of_same (h : OnePlace s) (haccepted : t.accepted = s.accepted)
    (hqueue : t.queue = s.queue) (hstore : t.store = s.store) (hinjected : t.injected = s.injected)
    (hinHand : t.agent.inHand = s.agent.inHand) (hmirrored : t.mirrored = s.mirrored) :
    OnePlace t := by
  intro x hx
  refine (h x (haccepted ▸ hx)).imp (fun hqueued => ?_) fun helse => ?_
  · constructor
    · rw [hqueue, hqueued.queue]
    · rw [hstore, hmirrored]
      exact hqueued.store
    · rw [hinjected, hqueued.injected]
    · rw [hinHand, hqueued.inHand]
  · constructor
    · rw [hqueue, helse.queue]
    · rw [hstore, hinjected, hinHand, helse.once]

lemma OnePlace.enqueue (h : OnePlace s) (hknown : Known s) (hx : x ∉ s.accepted) :
    OnePlace { s with
      queue := s.queue ++ [x]
      issued := s.issued + 1
      accepted := x :: s.accepted } := by
  intro y hy
  by_cases hyx : y = x
  · subst hyx
    obtain ⟨hqueue, hstore, hinjected, hhand⟩ := hknown.count_eq_zero hx
    exact .inl ⟨by simp [hqueue], .inl hstore, hinjected, hhand⟩
  · have hy : y ∈ s.accepted := (List.mem_cons.mp hy).resolve_left hyx
    have hsame : (s.queue ++ [x]).count y = s.queue.count y := by simp [Ne.symm hyx]
    refine (h y hy).imp (fun hqueued => ?_) fun helse => ?_
    · exact ⟨hsame.trans hqueued.queue, hqueued.store, hqueued.injected, hqueued.inHand⟩
    · exact ⟨hsame.trans helse.queue, helse.once⟩

/-- The append may write back what it has read. -/
lemma OnePlace.writeAppend_iff (h : OnePlace s) (hknown : Known s) {n : Nat}
    {current : List SoftInterruptMessage} (hx : x ∉ s.accepted)
    (hcurrent : ∀ y ∈ current, y ∈ s.accepted) :
    OnePlace { s.setAppend n .none with
        store := current ++ [x]
        accepted := x :: s.accepted } ↔
      s.Unchanged current ∧ ∀ y ∈ s.queue, y ∈ current → current.count y = 1 ∧ y ∈ s.mirrored := by
  have hsame {y : SoftInterruptMessage} (hy : y ∈ s.accepted) :
      (current ++ [x]).count y = current.count y := by
    have hne : x ≠ y := fun heq => hx (heq ▸ hy)
    simp [hne]
  constructor
  · intro h'
    refine ⟨fun y hy hqueue => ?_, fun y hqueue hmem => ?_⟩
    · have hbefore := (h.elsewhere hy hqueue).once
      have hafter : (current ++ [x]).count y + s.injected.count y + s.agent.inHand.count y = 1 :=
        (h'.elsewhere (List.mem_cons_of_mem _ hy) hqueue).once
      rw [hsame hy] at hafter
      omega
    · have hy := hcurrent y hmem
      have hstore : (current ++ [x]).count y = 0 ∨ (current ++ [x]).count y = 1 ∧ y ∈ s.mirrored :=
        (h'.queued (List.mem_cons_of_mem _ hy) hqueue).store
      rw [hsame hy] at hstore
      refine hstore.resolve_left fun hzero => ?_
      exact List.count_eq_zero.mp hzero hmem
  · rintro ⟨hunchanged, hmirror⟩ y hy
    by_cases hyx : y = x
    · subst hyx
      obtain ⟨hqueue, -, hinjected, hhand⟩ := hknown.count_eq_zero hx
      have hnew : y ∉ current := fun hmem => hx (hcurrent y hmem)
      have hone : (current ++ [y]).count y = 1 := by simp [List.count_eq_zero.mpr hnew]
      refine .inr ⟨hqueue, ?_⟩
      show (current ++ [y]).count y + s.injected.count y + s.agent.inHand.count y = 1
      omega
    · have hy : y ∈ s.accepted := (List.mem_cons.mp hy).resolve_left hyx
      by_cases hqueue : y ∈ s.queue
      · have hqueued := h.queued hy hqueue
        refine .inl ⟨hqueued.queue, ?_, hqueued.injected, hqueued.inHand⟩
        show (current ++ [x]).count y = 0 ∨ (current ++ [x]).count y = 1 ∧ y ∈ s.mirrored
        rw [hsame hy]
        by_cases hmem : y ∈ current
        · exact .inr (hmirror y hqueue hmem)
        · exact .inl (List.count_eq_zero.mpr hmem)
      · have helse := h.elsewhere hy hqueue
        refine .inr ⟨helse.queue, ?_⟩
        show (current ++ [x]).count y + s.injected.count y + s.agent.inHand.count y = 1
        rw [hsame hy, hunchanged y hy hqueue]
        exact helse.once

/-- The agent may remove the file that it has read. -/
lemma OnePlace.removeTaken_iff (h : OnePlace s) (hknown : Known s)
    {loaded : List SoftInterruptMessage} (hagent : s.agent = .taking loaded) :
    OnePlace { s with
        store := []
        agent := .extending loaded
        mirrored := [] } ↔
      s.Unchanged loaded ∧ ∀ y ∈ s.queue, y ∉ loaded := by
  have hhand (y : SoftInterruptMessage) : s.agent.inHand.count y = 0 := by
    simp [hagent, InterruptPhase.inHand]
  constructor
  · intro h'
    refine ⟨fun y hy hqueue => ?_, fun y hqueue => ?_⟩
    · have hbefore := (h.elsewhere hy hqueue).once
      have hafter : 0 + s.injected.count y + loaded.count y = 1 := (h'.elsewhere hy hqueue).once
      have hzero := hhand y
      omega
    · have hloaded : loaded.count y = 0 :=
        (h'.queued (hknown.accepted y (.inl hqueue)) hqueue).inHand
      exact List.count_eq_zero.mp hloaded
  · rintro ⟨hunchanged, hapart⟩ y hy
    by_cases hqueue : y ∈ s.queue
    · have hqueued := h.queued hy hqueue
      exact .inl ⟨hqueued.queue, .inl rfl, hqueued.injected,
        List.count_eq_zero.mpr (hapart y hqueue)⟩
    · have helse := h.elsewhere hy hqueue
      have honce := helse.once
      have hzero := hhand y
      refine .inr ⟨helse.queue, ?_⟩
      show 0 + s.injected.count y + loaded.count y = 1
      rw [hunchanged y hy hqueue]
      omega

/-- If the file stays, there must have been nothing in it. -/
lemma OnePlace.keepTaken_iff (h : OnePlace s) (hknown : Known s)
    {loaded : List SoftInterruptMessage} (hagent : s.agent = .taking loaded) :
    OnePlace { s with agent := .extending loaded } ↔ loaded = [] := by
  constructor
  · intro h'
    refine List.eq_nil_iff_forall_not_mem.mpr fun y hmem => ?_
    have hy : y ∈ s.accepted :=
      hknown.accepted y (.inr (.inr (.inr (by rw [hagent]; exact hmem))))
    have hpos := List.count_pos_iff.mpr hmem
    by_cases hqueue : y ∈ s.queue
    · have hzero : loaded.count y = 0 := (h'.queued hy hqueue).inHand
      omega
    · have hbefore := (h.elsewhere hy hqueue).once
      have hafter : s.store.count y + s.injected.count y + loaded.count y = 1 :=
        (h'.elsewhere hy hqueue).once
      rw [hagent] at hbefore
      simp only [InterruptPhase.inHand, List.count_nil] at hbefore
      omega
  · rintro rfl
    exact h.of_same rfl rfl rfl rfl (by rw [hagent]; rfl) rfl

lemma OnePlace.extendQueue (h : OnePlace s) {loaded : List SoftInterruptMessage}
    (hagent : s.agent = .extending loaded) :
    OnePlace { s with
      queue := s.queue ++ loaded
      agent := .idle } := by
  have hhand (y : SoftInterruptMessage) : s.agent.inHand.count y = loaded.count y := by
    rw [hagent]
    rfl
  intro y hy
  have hqueue : (s.queue ++ loaded).count y = s.queue.count y + loaded.count y :=
    List.count_append
  rcases h y hy with hqueued | helse
  · have hzero := hqueued.inHand
    rw [hhand] at hzero
    exact .inl ⟨by rw [hqueue, hqueued.queue, hzero], hqueued.store, hqueued.injected, rfl⟩
  · have honce := helse.once
    have hout := helse.queue
    rw [hhand] at honce
    by_cases hmem : y ∈ loaded
    · have hpos := List.count_pos_iff.mpr hmem
      have hone : (s.queue ++ loaded).count y = 1 := by omega
      have hstore : s.store.count y = 0 := by omega
      have hinjected : s.injected.count y = 0 := by omega
      exact .inl ⟨hone, .inl hstore, hinjected, rfl⟩
    · have hzero := List.count_eq_zero.mpr hmem
      have hnone : (s.queue ++ loaded).count y = 0 := by omega
      refine .inr ⟨hnone, ?_⟩
      show s.store.count y + s.injected.count y + 0 = 1
      omega

/-- A snapshot may overwrite what is in the queue. -/
lemma OnePlace.writeSnapshot_iff (h : OnePlace s) (hknown : Known s)
    {pending : List SoftInterruptMessage} (hagent : s.agent = .snapshotting pending) :
    OnePlace { s with
        store := pending
        agent := .idle
        mirrored := pending } ↔
      ∀ y ∈ s.store, y ∈ s.queue := by
  have hfront := hknown.snapshot pending hagent
  have hhand (y : SoftInterruptMessage) : s.agent.inHand.count y = 0 := by
    simp [hagent, InterruptPhase.inHand]
  constructor
  · intro h' y hstore
    by_contra hqueue
    have hy := hknown.accepted y (.inr (.inl hstore))
    have hbefore := (h.elsewhere hy hqueue).once
    have hafter : pending.count y + s.injected.count y + 0 = 1 := (h'.elsewhere hy hqueue).once
    have hpos := List.count_pos_iff.mpr hstore
    have hzero : pending.count y = 0 :=
      List.count_eq_zero.mpr fun hmem => hqueue (hfront.subset hmem)
    omega
  · intro hsub y hy
    by_cases hqueue : y ∈ s.queue
    · have hqueued := h.queued hy hqueue
      have hle : pending.count y ≤ s.queue.count y := hfront.sublist.count_le y
      refine .inl ⟨hqueued.queue, ?_, hqueued.injected, rfl⟩
      by_cases hmem : y ∈ pending
      · have hpos := List.count_pos_iff.mpr hmem
        have hone := hqueued.queue
        have hmirror : pending.count y = 1 := by omega
        exact .inr ⟨hmirror, hmem⟩
      · exact .inl (List.count_eq_zero.mpr hmem)
    · have helse := h.elsewhere hy hqueue
      have honce := helse.once
      have hstore : s.store.count y = 0 :=
        List.count_eq_zero.mpr fun hmem => hqueue (hsub y hmem)
      have hpending : pending.count y = 0 :=
        List.count_eq_zero.mpr fun hmem => hqueue (hfront.subset hmem)
      have hzero := hhand y
      refine .inr ⟨helse.queue, ?_⟩
      show pending.count y + s.injected.count y + 0 = 1
      omega

/-- The queue may be injected unless it is mirrored. -/
lemma OnePlace.drainQueue_iff (h : OnePlace s) (hknown : Known s) (hagent : s.agent = .idle) :
    OnePlace { s with
        queue := []
        agent := .injecting s.queue } ↔
      ∀ y ∈ s.queue, y ∉ s.store := by
  constructor
  · intro h' y hqueue hstore
    have hy := hknown.accepted y (.inl hqueue)
    have hone := (h.queued hy hqueue).queue
    have hafter : s.store.count y + s.injected.count y + s.queue.count y = 1 :=
      (h'.elsewhere hy List.not_mem_nil).once
    have hpos := List.count_pos_iff.mpr hstore
    omega
  · intro hapart y hy
    refine .inr ⟨rfl, ?_⟩
    show s.store.count y + s.injected.count y + s.queue.count y = 1
    by_cases hqueue : y ∈ s.queue
    · have hqueued := h.queued hy hqueue
      rw [List.count_eq_zero.mpr (hapart y hqueue), hqueued.injected, hqueued.queue]
    · have helse := h.elsewhere hy hqueue
      have honce := helse.once
      rw [hagent] at honce
      simp only [InterruptPhase.inHand, List.count_nil] at honce
      have hzero := helse.queue
      omega

lemma OnePlace.addMessages (h : OnePlace s) {messages : List SoftInterruptMessage}
    (hagent : s.agent = .injecting messages) :
    OnePlace { s with
      transcript := s.transcript ++ injectSoftInterrupts messages
      agent := .idle } := by
  have hinjected : (s.transcript ++ injectSoftInterrupts messages).flatMap (·.parts) =
      s.injected ++ messages := by
    rw [List.flatMap_append, flatMap_injectSoftInterrupts]
    rfl
  have hcount (y : SoftInterruptMessage) :
      ((s.transcript ++ injectSoftInterrupts messages).flatMap (·.parts)).count y =
        s.injected.count y + s.agent.inHand.count y := by
    rw [hinjected, List.count_append, hagent]
    rfl
  intro y hy
  rcases h y hy with hqueued | helse
  · refine .inl ⟨hqueued.queue, hqueued.store, ?_, rfl⟩
    exact (hcount y).trans (by rw [hqueued.injected, hqueued.inHand])
  · refine .inr ⟨helse.queue, ?_⟩
    show s.store.count y + ((s.transcript ++ injectSoftInterrupts messages).flatMap
      (·.parts)).count y + 0 = 1
    rw [hcount, ← helse.once]
    omega

/-- The agent may end once its queue is mirrored. -/
lemma OnePlace.drop_iff (h : OnePlace s) (hknown : Known s) (hagent : s.agent = .idle) :
    OnePlace { s with
        queue := []
        mirrored := [] } ↔
      ∀ y ∈ s.queue, y ∈ s.store := by
  have hhand (y : SoftInterruptMessage) : s.agent.inHand.count y = 0 := by
    simp [hagent, InterruptPhase.inHand]
  constructor
  · intro h' y hqueue
    by_contra hstore
    have hy := hknown.accepted y (.inl hqueue)
    have hqueued := h.queued hy hqueue
    have hinjected := hqueued.injected
    have hafter : s.store.count y + s.injected.count y + s.agent.inHand.count y = 1 :=
      (h'.elsewhere hy List.not_mem_nil).once
    have hzero := List.count_eq_zero.mpr hstore
    have hnone := hhand y
    omega
  · intro hmirror y hy
    refine .inr ⟨rfl, ?_⟩
    show s.store.count y + s.injected.count y + s.agent.inHand.count y = 1
    by_cases hqueue : y ∈ s.queue
    · have hqueued := h.queued hy hqueue
      have hpos := List.count_pos_iff.mpr (hmirror y hqueue)
      have hinjected := hqueued.injected
      have hnone := hhand y
      rcases hqueued.store with hzero | ⟨hone, -⟩ <;> omega
    · exact (h.elsewhere hy hqueue).once

/-! ### The moves -/

lemma Known.step (h : Known s) (hs : s.step m = some t) : Known t := by
  cases Rule.of_step hs with
  | enqueue content urgent source => exact h.enqueue rfl
  | startAppend content urgent source => exact h.startAppend rfl
  | loadAppend n message hstarted => exact h.setAppend (.inr ⟨message, hstarted, rfl⟩)
  | loadFails | writeFails => exact h.setAppend (.inl rfl)
  | writeAppend n message current hloaded => exact h.writeAppend hloaded
  | takeStore hagent =>
    refine h.of_agent rfl rfl rfl (fun x hx => ?_) (by simp)
    exact hx.imp_right fun hx => hx.elim .inl fun hx => hx.elim (.inr ∘ .inl) .inl
  | takeFails hagent => exact h
  | removeTaken loaded hagent =>
    refine h.of_agent rfl rfl rfl (fun x hx => ?_) (by simp)
    rw [show s.agent.messages = loaded by rw [hagent]; rfl]
    exact hx.imp_right fun hx => hx.elim (fun hx => nomatch hx) .inr
  | keepTaken loaded hagent =>
    refine h.of_agent rfl rfl rfl (fun x hx => ?_) (by simp)
    rw [show s.agent.messages = loaded by rw [hagent]; rfl]
    exact hx
  | extendQueue loaded hagent =>
    refine h.of_agent rfl rfl rfl (fun x hx => ?_) (by simp)
    rw [show s.agent.messages = loaded by rw [hagent]; rfl]
    rcases hx with hx | hx | hx | hx
    · exact (List.mem_append.mp hx).imp_right fun hx => .inr (.inr hx)
    · exact .inr (.inl hx)
    · exact .inr (.inr (.inl hx))
    · cases hx
  | cloneQueue hagent =>
    refine h.of_agent rfl rfl rfl (fun x hx => ?_) fun pending hpending => ?_
    · rcases hx with hx | hx | hx | hx
      · exact .inl hx
      · exact .inr (.inl hx)
      · exact .inr (.inr (.inl hx))
      · exact .inl hx
    · cases hpending
      exact List.prefix_rfl
  | writeSnapshot pending hagent =>
    refine h.of_agent rfl rfl rfl (fun x hx => ?_) (by simp)
    rw [show s.agent.messages = pending by rw [hagent]; rfl]
    rcases hx with hx | hx | hx | hx
    · exact .inl hx
    · exact .inr (.inr (.inr hx))
    · exact .inr (.inr (.inl hx))
    · cases hx
  | snapshotFails pending hagent =>
    refine h.of_agent rfl rfl rfl (fun x hx => ?_) (by simp)
    exact hx.imp_right fun hx => hx.imp_right fun hx => hx.imp_right fun hx => nomatch hx
  | drainQueue hagent =>
    refine h.of_agent rfl rfl rfl (fun x hx => ?_) (by simp)
    rcases hx with hx | hx | hx | hx
    · cases hx
    · exact .inr (.inl hx)
    · exact .inr (.inr (.inl hx))
    · exact .inl hx
  | addMessages messages hagent =>
    refine h.of_agent rfl rfl rfl (fun x hx => ?_) (by simp)
    rw [show s.agent.messages = messages by rw [hagent]; rfl]
    rcases hx with hx | hx | hx | hx
    · exact .inl hx
    · exact .inr (.inl hx)
    · have hsplit : x ∈ s.injected ++ messages := by
        rwa [injected, List.flatMap_append, flatMap_injectSoftInterrupts] at hx
      exact .inr (.inr (List.mem_append.mp hsplit))
    · cases hx
  | drop hagent =>
    refine h.of_agent rfl rfl rfl (fun x hx => ?_) fun pending hpending => ?_
    · exact .inr (hx.elim (fun hx => nomatch hx) id)
    · cases hagent.symm.trans hpending

/-- One move keeps every message in one place exactly if the condition is met. -/
lemma OnePlace.step_iff (h : OnePlace s) (hknown : Known s) (hs : s.step m = some t) :
    OnePlace t ↔ KeepsInOnePlace s m := by
  cases Rule.of_step hs with
  | enqueue content urgent source =>
    refine iff_of_true (h.enqueue hknown fun hmem => ?_) trivial
    exact Nat.lt_irrefl _ (hknown.numbered _ hmem)
  | startAppend | loadAppend | loadFails | writeFails =>
    exact iff_of_true (h.of_same rfl rfl rfl rfl rfl rfl) trivial
  | writeAppend n message current hloaded =>
    obtain ⟨-, -, hfresh, hcurrent⟩ := hknown.loaded n message current hloaded
    rw [h.writeAppend_iff hknown hfresh hcurrent]
    refine ⟨fun hkeep message' current' hloaded' => ?_,
      fun hkeep => hkeep message current hloaded⟩
    cases hloaded.symm.trans hloaded'
    exact hkeep
  | takeStore hagent =>
    exact iff_of_true (h.of_same rfl rfl rfl rfl (by rw [hagent]; rfl) rfl) trivial
  | takeFails hagent => exact iff_of_true h trivial
  | removeTaken loaded hagent =>
    rw [h.removeTaken_iff hknown hagent]
    refine ⟨fun hkeep loaded' hagent' => ?_, fun hkeep => hkeep loaded hagent⟩
    cases hagent.symm.trans hagent'
    exact hkeep
  | keepTaken loaded hagent =>
    rw [h.keepTaken_iff hknown hagent]
    refine ⟨fun hkeep loaded' hagent' => ?_, fun hkeep => hkeep loaded hagent⟩
    cases hagent.symm.trans hagent'
    exact hkeep
  | extendQueue loaded hagent => exact iff_of_true (h.extendQueue hagent) trivial
  | cloneQueue hagent | snapshotFails pending hagent =>
    exact iff_of_true (h.of_same rfl rfl rfl rfl (by rw [hagent]; rfl) rfl) trivial
  | writeSnapshot pending hagent => exact h.writeSnapshot_iff hknown hagent
  | drainQueue hagent => exact h.drainQueue_iff hknown hagent
  | addMessages messages hagent => exact iff_of_true (h.addMessages hagent) trivial
  | drop hagent => exact h.drop_iff hknown hagent

lemma Known.start : Known start where
  accepted x hx := by simp [InterruptSystem.start, injected, InterruptPhase.messages] at hx
  numbered := (by rintro _ ⟨⟩)
  started := (by rintro _ _ ⟨⟩)
  loaded := (by rintro _ _ _ ⟨⟩)
  snapshot := (by rintro _ ⟨⟩)

end InterruptSystem

open InterruptSystem

/-- Throughout a run every accepted message is in exactly one place, the mirror of a snapshot
apart: exactly if every move meets the condition. -/
theorem softInterrupts_onePlace_iff {moves : List InterruptMove} {t : InterruptSystem}
    (hrun : exec step start moves = some t) :
    Always step OnePlace start moves ↔ Guarded step KeepsInOnePlace start moves :=
  always_iff_guarded (E := fun _ _ => True) (fun _ _ _ h _ hs => h.step hs)
    (fun _ _ _ hknown hP _ hG hs => (hP.step_iff hknown hs).mpr hG)
    (fun _ _ _ hknown hP _ hG hs hP' => hG ((hP.step_iff hknown hs).mp hP')) Known.start
    (by rintro _ ⟨⟩) (guarded_of_forall_mem fun _ _ _ => trivial) hrun

/-- A message waits in the queue while the agent is closed with a snapshot, the next agent
restores it and injects it, and another message is deferred to the file meanwhile. -/
def reopenedRun : List InterruptMove :=
  [.enqueue "resume" true .system, .cloneQueue, .writeSnapshot true, .drop, .takeStore true,
    .removeTaken true, .extendQueue, .startAppend "later" false .user, .loadAppend 1 true,
    .drainQueue, .writeAppend 1 true, .addMessages]

theorem softInterrupts_onePlace_iff_reopenedRun :
    Always step OnePlace start reopenedRun ↔ Guarded step KeepsInOnePlace start reopenedRun :=
  softInterrupts_onePlace_iff (t := _) rfl

/-- A message is deferred to the file while the agent cannot be reached; then the agent is closed
with an empty queue. -/
def deferredRun : List InterruptMove :=
  [.startAppend "finished" false .backgroundTask, .loadAppend 0 true, .writeAppend 0 true,
    .cloneQueue, .writeSnapshot true]

/-- The snapshot has removed the file, and the message is nowhere. -/
theorem persistSoftInterruptSnapshot_drops :
    ∃ t, exec step start deferredRun = some t ∧ t.accepted ≠ [] ∧ ¬ OnePlace t := by
  refine ⟨_, rfl, by simp, fun h => ?_⟩
  rcases h ⟨0, "finished", false, .backgroundTask⟩ List.mem_cons_self with hqueued | helse
  · exact absurd hqueued.queue (by decide)
  · exact absurd helse.once (by decide)

end Jcode
