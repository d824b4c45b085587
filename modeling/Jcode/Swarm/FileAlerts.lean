import Jcode.Swarm.FileActivity
import Mathlib.Data.List.TakeWhile

/-!
# Alerts about files

Who hears of a modification: the session that makes it hears of every peer that has modified the
file, and every such peer hears of it, once each and of nothing else.
-/

namespace Jcode.FileActivity

open Schedule

/-- The touch that the monitor is at. -/
def Monitor.touch : Monitor → Option FileTouch
  | indexing touch | seeking touch | lookingUp touch _ | alerting touch _ => some touch
  | _ => none

variable {accesses previous : List FileAccess} {access prev : FileAccess} {session current : String}
  {swarm : Finset String}

/-! ### The latest touches of the peers -/

/-- A session's latest access among some, if it has one. -/
def IsLatest (accesses : List FileAccess) (session : String) : Option FileAccess → Prop
  | none => ∀ access ∈ accesses, access.sessionId ≠ session
  | some latest => latest ∈ accesses ∧ latest.sessionId = session ∧
      ∀ access ∈ accesses, access.sessionId = session → access.timestamp ≤ latest.timestamp

lemma IsLatest.later {latest : Option FileAccess} (h : IsLatest accesses access.sessionId latest) :
    IsLatest (accesses ++ [access]) access.sessionId (some (laterOf latest access)) := by
  cases latest with
  | none =>
    refine ⟨List.mem_append_right _ (List.mem_singleton_self _), rfl, ?_⟩
    intro other hother hsession
    rcases List.mem_append.mp hother with hother | hother
    · exact absurd hsession (h other hother)
    · rw [List.mem_singleton.mp hother]
      exact le_rfl
  | some latest =>
    obtain ⟨hmem, hsession, hlatest⟩ := h
    rw [laterOf]
    split_ifs with hlt
    · refine ⟨List.mem_append_right _ (List.mem_singleton_self _), rfl, ?_⟩
      intro other hother hother'
      rcases List.mem_append.mp hother with hother | hother
      · exact (hlatest other hother hother').trans hlt.le
      · rw [List.mem_singleton.mp hother]
    · refine ⟨List.mem_append_left _ hmem, hsession, ?_⟩
      intro other hother hother'
      rcases List.mem_append.mp hother with hother | hother
      · exact hlatest other hother hother'
      · rw [List.mem_singleton.mp hother]
        exact not_lt.mp hlt

lemma IsLatest.other {latest : Option FileAccess} (h : IsLatest accesses session latest)
    (hne : access.sessionId ≠ session) : IsLatest (accesses ++ [access]) session latest := by
  cases latest with
  | none =>
    intro other hother
    rcases List.mem_append.mp hother with hother | hother
    · exact h other hother
    · rw [List.mem_singleton.mp hother]
      exact hne
  | some latest =>
    obtain ⟨hmem, hsession, hlatest⟩ := h
    refine ⟨List.mem_append_left _ hmem, hsession, ?_⟩
    intro other hother hother'
    rcases List.mem_append.mp hother with hother | hother
    · exact hlatest other hother hother'
    · rw [List.mem_singleton.mp hother] at hother'
      exact absurd hother' hne

lemma isLatest_foldl (accesses : List FileAccess) (session : String) : IsLatest accesses session
    (SortedMap.get session (accesses.foldl keepLatest [])) := by
  induction accesses using List.reverseRecOn with
  | nil => exact List.forall_mem_nil _
  | append_singleton accesses access ih =>
    rw [List.foldl_append, List.foldl_cons, List.foldl_nil, keepLatest, SortedMap.get_insert]
    split_ifs with hsession
    · subst hsession
      exact ih.later
    · exact ih.other hsession

lemma sorted_foldl : SortedMap.Sorted (accesses.foldl keepLatest []) := by
  induction accesses using List.reverseRecOn with
  | nil => exact .nil
  | append_singleton accesses access ih =>
    rw [List.foldl_append, List.foldl_cons, List.foldl_nil]
    exact ih.insert

/-- What a peer did last to a file, of what it has done to modify it. -/
def LatestOfPeer (accesses : List FileAccess) (current : String) (swarm : Finset String)
    (access : FileAccess) : Prop :=
  IsLatest (accesses.filter (peerModification current swarm)) access.sessionId (some access)

lemma latestOfPeer_of_mem (h : access ∈ latestPeerTouches accesses current swarm) :
    LatestOfPeer accesses current swarm access := by
  obtain ⟨entry, hentry, rfl⟩ := List.mem_map.mp h
  have hget := sorted_foldl.get_of_mem hentry
  have hlatest := isLatest_foldl (accesses.filter (peerModification current swarm)) entry.1
  rw [hget] at hlatest
  have hsession : entry.2.sessionId = entry.1 := hlatest.2.1
  rw [LatestOfPeer, hsession]
  exact hlatest

/-- No session is there twice. -/
lemma nodup_latestPeerTouches (accesses : List FileAccess) (current : String)
    (swarm : Finset String) :
    ((latestPeerTouches accesses current swarm).map FileAccess.sessionId).Nodup := by
  rw [latestPeerTouches, List.map_map]
  have hkeys : ((accesses.filter (peerModification current swarm)).foldl keepLatest []).map
      (FileAccess.sessionId ∘ Prod.snd) =
        ((accesses.filter (peerModification current swarm)).foldl keepLatest []).map Prod.fst := by
    refine List.map_congr_left fun entry hentry => ?_
    have hlatest := isLatest_foldl (accesses.filter (peerModification current swarm)) entry.1
    rw [sorted_foldl.get_of_mem hentry] at hlatest
    exact hlatest.2.1
  rw [hkeys]
  exact (List.pairwise_map.mpr sorted_foldl).imp ne_of_lt

/-- Every peer that has modified the file is there with something at least as late. -/
lemma exists_mem_latestPeerTouches (haccess : access ∈ accesses)
    (hpeer : peerModification current swarm access) :
    ∃ latest ∈ latestPeerTouches accesses current swarm,
      latest.sessionId = access.sessionId ∧ access.timestamp ≤ latest.timestamp := by
  have hmem : access ∈ accesses.filter (peerModification current swarm) :=
    List.mem_filter.mpr ⟨haccess, hpeer⟩
  have hlatest := isLatest_foldl (accesses.filter (peerModification current swarm))
    access.sessionId
  cases hget : SortedMap.get access.sessionId
      ((accesses.filter (peerModification current swarm)).foldl keepLatest []) with
  | none =>
    rw [hget] at hlatest
    exact absurd rfl (hlatest access hmem)
  | some latest =>
    rw [hget] at hlatest
    obtain ⟨-, hsession, htimestamp⟩ := hlatest
    exact ⟨latest, List.mem_map.mpr ⟨_, SortedMap.mem_of_get hget, rfl⟩, hsession,
      htimestamp access hmem rfl⟩

/-! ### Alerts have a reason -/

variable {s s' u v w : State} {i : Move} {is js ls : List Move} {touch : FileTouch} {path : String}
  {s₀ : State}

def Recorded (is : List Move) (path : String) (access : FileAccess) : Prop :=
  ∃ touch now, touch.path = path ∧ access = touch.access now ∧ .receive touch now ∈ is

/-- The access was recorded before the touch was. -/
def RecordedBefore (is : List Move) (touch : FileTouch) (path : String) (access : FileAccess) :
    Prop :=
  ∃ earlier earlierNow now, earlier.path = path ∧ access = earlier.access earlierNow ∧
    List.Sublist [.receive earlier earlierNow, .receive touch now] is

/-- At some point of the run these were the sessions of the swarm. -/
def WasSwarm (s₀ : State) (is : List Move) (session : String) (peers : Finset String) : Prop :=
  ∃ ks u, ks <+: is ∧ exec step s₀ ks = some u ∧ peers = swarmSessionIds u.tables session

/-- A session modifies what another session of its swarm has modified before. -/
structure Conflict (s₀ : State) (is : List Move) (touch : FileTouch) (prev : FileAccess) :
    Prop where
  before : RecordedBefore is touch touch.path prev
  ne : prev.sessionId ≠ touch.sessionId
  modifies : touch.op.isModification
  modified : prev.op.isModification
  inSwarm : ∃ peers, WasSwarm s₀ is touch.sessionId peers ∧ prev.sessionId ∈ peers

/-- One of the two sessions is told what the other has done. -/
def HasReason (s₀ : State) (is : List Move) (alert : Alert) : Prop :=
  ∃ touch prev, Conflict s₀ is touch prev ∧ ∃ tables head,
    alert = alertToCurrent tables touch prev head ∨ alert = alertToPrevious tables touch prev head

section

variable (h : is <+: js)
include h

lemma Recorded.mono (hrecorded : Recorded is path access) : Recorded js path access := by
  obtain ⟨touch, now, hpath, haccess, hmem⟩ := hrecorded
  exact ⟨touch, now, hpath, haccess, h.subset hmem⟩

lemma RecordedBefore.mono (hbefore : RecordedBefore is touch path access) :
    RecordedBefore js touch path access := by
  obtain ⟨earlier, earlierNow, now, hpath, haccess, hsublist⟩ := hbefore
  exact ⟨earlier, earlierNow, now, hpath, haccess, hsublist.trans h.sublist⟩

lemma WasSwarm.mono {peers : Finset String} (hswarm : WasSwarm s₀ is session peers) :
    WasSwarm s₀ js session peers := by
  obtain ⟨ks, u, hks, hu, hpeers⟩ := hswarm
  exact ⟨ks, u, hks.trans h, hu, hpeers⟩

lemma Conflict.mono (hconflict : Conflict s₀ is touch prev) : Conflict s₀ js touch prev where
  before := hconflict.before.mono h
  ne := hconflict.ne
  modifies := hconflict.modifies
  modified := hconflict.modified
  inSwarm := by
    obtain ⟨peers, hswarm, hpeer⟩ := hconflict.inSwarm
    exact ⟨peers, hswarm.mono h, hpeer⟩

lemma HasReason.mono {alert : Alert} (hreason : HasReason s₀ is alert) :
    HasReason s₀ js alert := by
  obtain ⟨touch, prev, hconflict, htext⟩ := hreason
  exact ⟨touch, prev, hconflict.mono h, htext⟩

end

/-- What the state knows of the schedule that led to it. -/
structure Traced (s₀ : State) (is : List Move) (s : State) : Prop where
  recorded : ∀ path, ∀ access ∈ s.touches.accesses path, Recorded is path access
  before : ∀ touch ∈ s.monitor.touch, ∀ path, ∀ access ∈ s.touches.accesses path,
    access.sessionId ≠ touch.sessionId → RecordedBefore is touch path access
  peers : ∀ touch peers, s.monitor = .lookingUp touch peers →
    WasSwarm s₀ is touch.sessionId peers
  previous : ∀ touch previous, s.monitor = .alerting touch previous →
    ∀ prev ∈ previous, Conflict s₀ is touch prev
  alerts : ∀ alert ∈ s.alerts, HasReason s₀ is alert

namespace Traced

/-- A longer schedule that leads to a state with no other touches. -/
lemma of_frame (h : Traced s₀ is s) (his : is <+: js)
    (htouches : ∀ path, s'.touches.accesses path ⊆ s.touches.accesses path)
    (htouch : ∀ touch ∈ s'.monitor.touch, touch ∈ s.monitor.touch)
    (hpeers : ∀ touch peers, s'.monitor = .lookingUp touch peers →
      WasSwarm s₀ js touch.sessionId peers)
    (hprevious : ∀ touch previous, s'.monitor = .alerting touch previous →
      ∀ prev ∈ previous, Conflict s₀ js touch prev)
    (halerts : ∀ alert ∈ s'.alerts, HasReason s₀ js alert) : Traced s₀ js s' where
  recorded path access haccess := (h.recorded path access (htouches path haccess)).mono his
  before touch hmonitor path access haccess hne :=
    (h.before touch (htouch touch hmonitor) path access (htouches path haccess) hne).mono his
  peers := hpeers
  previous := hprevious
  alerts := halerts

/-- Nor is the monitor at a touch. -/
lemma of_idle (h : Traced s₀ is s) (his : is <+: js)
    (htouches : ∀ path, s'.touches.accesses path ⊆ s.touches.accesses path)
    (hidle : s'.monitor.touch = none) (halerts : s'.alerts = s.alerts) : Traced s₀ js s' := by
  refine h.of_frame his htouches ?_ ?_ ?_ ?_
  · intro touch htouch
    rw [hidle] at htouch
    cases htouch
  · intro touch peers hmonitor
    rw [hmonitor] at hidle
    cases hidle
  · intro touch previous hmonitor
    rw [hmonitor] at hidle
    cases hidle
  · intro alert halert
    exact (h.alerts alert (halerts ▸ halert)).mono his

/-- The monitor stays where it is. -/
lemma of_environment (h : Traced s₀ is s) (his : is <+: js)
    (htouches : ∀ path, s'.touches.accesses path ⊆ s.touches.accesses path)
    (hmonitor : s'.monitor = s.monitor) (halerts : s'.alerts = s.alerts) :
    Traced s₀ js s' := by
  refine h.of_frame his htouches (by rw [hmonitor]; exact fun _ h => h) ?_ ?_ ?_
  · intro touch peers hlooking
    exact (h.peers touch peers (hmonitor ▸ hlooking)).mono his
  · intro touch previous halerting prev hprev
    exact (h.previous touch previous (hmonitor ▸ halerting) prev hprev).mono his
  · intro alert halert
    exact (h.alerts alert (halerts ▸ halert)).mono his

lemma receive (h : Traced s₀ is s) (now : Nat) :
    Traced s₀ (is ++ [.receive touch now]) (s.receive touch now) := by
  have his : is <+: is ++ [.receive touch now] := List.prefix_append _ _
  have hmem : Move.receive touch now ∈ is ++ [.receive touch now] := by simp
  constructor
  · intro path access haccess
    rw [State.receive, Touches.accesses_record, List.mem_append] at haccess
    rcases haccess with haccess | haccess
    · exact (h.recorded path access haccess).mono his
    · split_ifs at haccess with hpath
      · exact ⟨touch, now, hpath, List.mem_singleton.mp haccess, hmem⟩
      · cases haccess
  · rintro touch' ⟨⟩ path access haccess hne
    rw [State.receive, Touches.accesses_record, List.mem_append] at haccess
    rcases haccess with haccess | haccess
    · obtain ⟨earlier, earlierNow, hpath, haccess, hearlier⟩ := h.recorded path access haccess
      exact ⟨earlier, earlierNow, now, hpath, haccess,
        (List.singleton_sublist.mpr hearlier).append (List.Sublist.refl [Move.receive touch now])⟩
    · split_ifs at haccess
      · rw [List.mem_singleton.mp haccess] at hne
        exact absurd rfl hne
      · cases haccess
  · rintro touch' peers ⟨⟩
  · rintro touch' previous ⟨⟩
  · intro alert halert
    exact (h.alerts alert halert).mono his

lemma seek (h : Traced s₀ is s) (hs : exec step s₀ is = some s)
    (hmonitor : s.monitor = .seeking touch) :
    Traced s₀ (is ++ [.seek]) (s.seek touch) := by
  have his : is <+: is ++ [.seek] := List.prefix_append _ _
  refine h.of_frame his (fun _ => List.Subset.refl _) ?_ ?_ (by rintro _ _ ⟨⟩) ?_
  · rintro touch' ⟨⟩
    rw [hmonitor]
    rfl
  · rintro touch' peers ⟨⟩
    exact ⟨is, s, his, hs, rfl⟩
  · intro alert halert
    exact (h.alerts alert halert).mono his

lemma lookUp {peers : Finset String} (h : Traced s₀ is s)
    (hmonitor : s.monitor = .lookingUp touch peers) :
    Traced s₀ (is ++ [.lookUp]) (s.lookUp touch peers) := by
  have his : is <+: is ++ [.lookUp] := List.prefix_append _ _
  obtain ⟨monitor, heq, hnext⟩ := s.lookUp_eq peers
  rw [heq]
  rcases hnext with rfl | rfl | ⟨hmodification, rfl⟩
  · exact h.of_idle his (fun _ => List.Subset.refl _) rfl rfl
  · exact h.of_idle his (fun _ => List.Subset.refl _) rfl rfl
  · refine h.of_frame his (fun _ => List.Subset.refl _) ?_ (by simp) ?_ ?_
    · rintro touch' ⟨⟩
      rw [hmonitor]
      rfl
    · rintro touch' previous ⟨⟩ prev hprev
      obtain ⟨hmem, -, -⟩ := latestOfPeer_of_mem hprev
      obtain ⟨haccess, hpeer⟩ := List.mem_filter.mp hmem
      simp only [peerModification, ne_eq, decide_not, Bool.and_eq_true, Bool.not_eq_true',
        decide_eq_false_iff_not, decide_eq_true_eq] at hpeer
      obtain ⟨⟨hne, hpeer⟩, hmodified⟩ := hpeer
      have hbefore := h.before touch (by rw [hmonitor]; rfl) touch.path prev haccess hne
      exact ⟨hbefore.mono his, hne, hmodification, hmodified,
        peers, (h.peers touch peers hmonitor).mono his, hpeer⟩
    · intro alert halert
      exact (h.alerts alert halert).mono his

lemma alert (h : Traced s₀ is s) (hmonitor : s.monitor = .alerting touch previous) :
    Traced s₀ (is ++ [.alert]) (s.alert touch previous) := by
  have his : is <+: is ++ [.alert] := List.prefix_append _ _
  have hcurrent : ∀ alert ∈ alertsToCurrent s.tables touch previous,
      HasReason s₀ (is ++ [.alert]) alert := by
    intro alert halert
    unfold alertsToCurrent at halert
    split_ifs at halert with hmember
    · obtain ⟨prev, hprev, halert⟩ := List.mem_filterMap.mp halert
      obtain ⟨head, -, rfl⟩ := Option.map_eq_some_iff.mp halert
      have hmem : prev ∈ previous := (List.takeWhile_prefix _).subset hprev
      exact ⟨touch, prev, (h.previous touch previous hmonitor prev hmem).mono his, _, head,
        .inl rfl⟩
    · cases halert
  have hprevious : ∀ alert ∈ alertsToPrevious s.tables touch previous,
      HasReason s₀ (is ++ [.alert]) alert := by
    intro alert halert
    obtain ⟨prev, hprev, halert⟩ := List.mem_filterMap.mp halert
    obtain ⟨member, -, halert⟩ := Option.bind_eq_some_iff.mp halert
    obtain ⟨head, -, rfl⟩ := Option.map_eq_some_iff.mp halert
    exact ⟨touch, prev, (h.previous touch previous hmonitor prev hprev).mono his, _, head, .inr rfl⟩
  obtain ⟨monitor, sent, heq, hnext⟩ := s.alert_eq previous
  rw [heq]
  have hidle : monitor.touch = none := by
    rcases hnext with ⟨rfl, -⟩ | ⟨rfl, -⟩ <;> rfl
  have hsent : ∀ alert ∈ sent, HasReason s₀ (is ++ [.alert]) alert := by
    rcases hnext with ⟨-, rfl⟩ | ⟨-, rfl⟩
    · exact hcurrent
    · exact List.forall_mem_append.mpr ⟨hcurrent, hprevious⟩
  have hold : Traced s₀ (is ++ [.alert]) { s with monitor := monitor } :=
    h.of_idle his (fun _ => List.Subset.refl _) hidle rfl
  exact { hold with alerts := List.forall_mem_append.mpr ⟨hold.alerts, hsent⟩ }

lemma step (h : Traced s₀ is s) (hs : exec step s₀ is = some s)
    (hstep : FileActivity.step s i = some s') : Traced s₀ (is ++ [i]) s' := by
  have his : is <+: is ++ [i] := List.prefix_append _ _
  have hsame (path : String) : s.touches.accesses path ⊆ s.touches.accesses path :=
    List.Subset.refl _
  obtain ⟨now, rfl, hmonitor, rfl⟩ | ⟨now, index, rfl, hmonitor, rfl⟩ |
    ⟨touch, now, rfl, hmonitor, rfl⟩ | ⟨rfl, hmonitor, rfl⟩ | ⟨touch, rfl, hmonitor, rfl⟩ |
    ⟨touch, rfl, hmonitor, rfl⟩ | ⟨touch, peers, rfl, hmonitor, rfl⟩ |
    ⟨touch, previous, rfl, hmonitor, rfl⟩ | ⟨session, rfl, rfl⟩ | ⟨k, removal, rfl, hremoval, rfl⟩ |
    ⟨tables, rfl, rfl⟩ := step_cases hstep
  · unfold State.check
    split_ifs
    · refine h.of_idle his ?_ rfl rfl
      intro path
      rw [Touches.accesses_retain]
      exact List.filter_sublist.subset
    · exact h.of_idle his hsame rfl rfl
  · exact h.of_idle his hsame rfl rfl
  · exact h.receive now
  · exact h.of_idle his hsame rfl rfl
  · refine h.of_frame his hsame ?_ (by rintro _ _ ⟨⟩) (by rintro _ _ ⟨⟩) ?_
    · rintro touch' ⟨⟩
      rw [hmonitor]
      rfl
    · intro alert halert
      exact (h.alerts alert halert).mono his
  · exact h.seek hs hmonitor
  · exact h.lookUp hmonitor
  · exact h.alert hmonitor
  · exact h.of_environment his hsame rfl rfl
  · refine h.of_environment his ?_ rfl rfl
    intro path
    rw [State.finishRemoval, Touches.accesses_retain]
    exact List.filter_sublist.subset
  · exact h.of_environment his hsame rfl rfl

end Traced

lemma traced_start (tables : SwarmTables) (now : Nat) :
    Traced (start tables now) [] (start tables now) where
  recorded _ access haccess := nomatch (show access ∈ [] from haccess)
  before := by rintro _ ⟨⟩
  peers := by rintro _ _ ⟨⟩
  previous := by rintro _ _ ⟨⟩
  alerts := by rintro _ ⟨⟩

lemma traced_of_exec {tables : SwarmTables} {now : Nat}
    (hs : exec step (start tables now) is = some s) : Traced (start tables now) is s := by
  induction is using List.reverseRecOn generalizing s with
  | nil =>
    cases hs
    exact traced_start tables now
  | append_singleton is i ih =>
    obtain ⟨u, hu, hstep⟩ := exec_append_eq_some.mp hs
    rw [exec_singleton] at hstep
    exact (ih hu).step hu hstep

/-- Every alert tells one of two sessions of a swarm that they have modified one file, the one
before the other. -/
theorem hasReason_of_exec {tables : SwarmTables} {now : Nat}
    (hs : exec step (start tables now) is = some s) {alert : Alert} (halert : alert ∈ s.alerts) :
    HasReason (start tables now) is alert :=
  (traced_of_exec hs).alerts alert halert

/-- A swarm of two sessions. -/
def sampleTables : SwarmTables where
  members session :=
    if session = "session_fox" ∨ session = "session_owl" then some (readyAgent session) else none
  swarmsById swarm := if swarm = "swarm" then {"session_fox", "session_owl"} else ∅
  coordinators _ := none
  plans _ := none

/-- Both sessions edit one file. -/
def sampleEdits : List Move :=
  [.receive (sampleTouch "session_fox" "README.md") 1, .index, .seek, .lookUp, .check 2,
    .receive (sampleTouch "session_owl" "README.md") 3, .index, .seek]

theorem hasReason_sampleEdits :
    HasReason (start sampleTables 0) (.check 0 :: sampleEdits ++ [.lookUp, .alert])
      (alertToCurrent sampleTables (sampleTouch "session_owl" "README.md")
        ((sampleTouch "session_fox" "README.md").access 1) "session_") :=
  hasReason_of_exec
    (show exec step (start sampleTables 0) (.check 0 :: sampleEdits ++ [.lookUp, .alert]) = some _
      from rfl)
    (show _ ∈ [_, _] from List.mem_cons_self)

/-! ### No alert panics -/

/-- The id can be cut behind eight bytes. -/
def Sliceable (session : String) : Prop := (textHead session 8).isSome

/-- The ids of the swarms can be cut. -/
def SliceableTables (tables : SwarmTables) : Prop :=
  ∀ swarm, ∀ id ∈ tables.swarmsById swarm, Sliceable id

/-- The ids that come in with a move can be cut. -/
def Move.Sliceable : Move → Prop
  | receive touch _ => FileActivity.Sliceable touch.sessionId
  | setTables tables => SliceableTables tables
  | _ => True

lemma Sliceable.isSome_shortId (h : Sliceable session) : (shortId session).isSome := by
  have h : (textHead session 8).isSome := h
  have hwidth : 8 ≤ CharBytes.width session.toList := by
    rw [textHead, Option.isSome_map, CharBytes.isSome_cut] at h
    exact h.le
  rw [shortId, Nat.min_eq_left hwidth]
  exact h

/-- All ids can be cut, and the monitor runs. -/
structure Running (s : State) : Prop where
  tables : SliceableTables s.tables
  accesses : ∀ path, ∀ access ∈ s.touches.accesses path, Sliceable access.sessionId
  touch : ∀ touch ∈ s.monitor.touch, Sliceable touch.sessionId
  peers : ∀ touch peers, s.monitor = .lookingUp touch peers → ∀ peer ∈ peers, Sliceable peer
  previous : ∀ touch previous, s.monitor = .alerting touch previous →
    ∀ prev ∈ previous, Sliceable prev.sessionId
  monitor : s.monitor ≠ .panicked

namespace Running

lemma of_idle (h : Running s) (htables : s'.tables = s.tables)
    (htouches : ∀ path, s'.touches.accesses path ⊆ s.touches.accesses path)
    (hidle : s'.monitor.touch = none) (hmonitor : s'.monitor ≠ .panicked) : Running s' where
  tables := htables ▸ h.tables
  accesses path access haccess := h.accesses path access (htouches path haccess)
  touch touch htouch := by
    rw [hidle] at htouch
    cases htouch
  peers touch peers hlooking := by
    rw [hlooking] at hidle
    cases hidle
  previous touch previous halerting := by
    rw [halerting] at hidle
    cases hidle
  monitor := hmonitor

lemma of_environment (h : Running s) (htables : SliceableTables s'.tables)
    (htouches : ∀ path, s'.touches.accesses path ⊆ s.touches.accesses path)
    (hmonitor : s'.monitor = s.monitor) : Running s' where
  tables := htables
  accesses path access haccess := h.accesses path access (htouches path haccess)
  touch := hmonitor ▸ h.touch
  peers := hmonitor ▸ h.peers
  previous := hmonitor ▸ h.previous
  monitor := hmonitor ▸ h.monitor

lemma receive (h : Running s) (htouch : Sliceable touch.sessionId) (now : Nat) :
    Running (s.receive touch now) where
  tables := h.tables
  accesses path access haccess := by
    rw [State.receive, Touches.accesses_record, List.mem_append] at haccess
    rcases haccess with haccess | haccess
    · exact h.accesses path access haccess
    · split_ifs at haccess
      · rw [List.mem_singleton.mp haccess]
        exact htouch
      · cases haccess
  touch := by
    rintro touch' ⟨⟩
    exact htouch
  peers := by rintro _ _ ⟨⟩
  previous := by rintro _ _ ⟨⟩
  monitor := by rintro ⟨⟩

lemma seek (h : Running s) (hmonitor : s.monitor = .seeking touch) : Running (s.seek touch) where
  tables := h.tables
  accesses := h.accesses
  touch := by
    rintro touch' ⟨⟩
    exact h.touch touch (by rw [hmonitor]; rfl)
  peers := by
    rintro touch' peers ⟨⟩ peer hpeer
    unfold swarmSessionIds at hpeer
    cases hswarm : s.tables.swarmOf touch.sessionId with
    | none => simp [hswarm] at hpeer
    | some swarm =>
      rw [hswarm] at hpeer
      exact h.tables swarm peer hpeer
  previous := by rintro _ _ ⟨⟩
  monitor := by rintro ⟨⟩

/-- A look-up that finds nothing ends the touch, and otherwise there is somebody to tell. -/
lemma lookUp_eq {peers : Finset String} (h : Running s)
    (hmonitor : s.monitor = .lookingUp touch peers) : ∃ monitor,
    s.lookUp touch peers = { s with monitor := monitor } ∧
      (monitor = .checking ∧ (touch.op.isModification →
        latestPeerTouches (s.touches.accesses touch.path) touch.sessionId peers = []) ∨
      monitor = .alerting touch
        (latestPeerTouches (s.touches.accesses touch.path) touch.sessionId peers)) := by
  have hshort : ¬ ((shortId touch.sessionId).isNone ∨ ∃ peer ∈ peers, (shortId peer).isNone) := by
    have htouch := (h.touch touch (by rw [hmonitor]; rfl)).isSome_shortId
    rintro (hnone | ⟨peer, hpeer, hnone⟩)
    · simp [Option.isNone_iff_eq_none.mp hnone] at htouch
    · have hsome := (h.peers touch peers hmonitor peer hpeer).isSome_shortId
      simp [Option.isNone_iff_eq_none.mp hnone] at hsome
  unfold State.lookUp
  split_ifs with hmodification
  · refine ⟨.checking, rfl, .inl ⟨rfl, ?_⟩⟩
    intro hmodifies
    simp [hmodifies] at hmodification
  · split
    next hlatest => exact ⟨.checking, rfl, .inl ⟨rfl, fun _ => hlatest⟩⟩
    next => exact ⟨.alerting touch _, rfl, .inr rfl⟩

lemma lookUp {peers : Finset String} (h : Running s)
    (hmonitor : s.monitor = .lookingUp touch peers) : Running (s.lookUp touch peers) := by
  obtain ⟨monitor, heq, ⟨rfl, -⟩ | rfl⟩ := h.lookUp_eq hmonitor
  · rw [heq]
    exact h.of_idle rfl (fun _ => List.Subset.refl _) rfl (by simp)
  · rw [heq]
    refine ⟨h.tables, h.accesses, ?_, by simp, ?_, by simp⟩
    · rintro touch' ⟨⟩
      exact h.touch touch (by rw [hmonitor]; rfl)
    · rintro touch' previous ⟨⟩ prev hprev
      obtain ⟨hmem, -, -⟩ := latestOfPeer_of_mem hprev
      exact h.accesses touch.path prev (List.mem_filter.mp hmem).1

lemma alert_eq (h : Running s) (hmonitor : s.monitor = .alerting touch previous) :
    s.alert touch previous =
      { s with
        alerts := s.alerts ++
          (alertsToCurrent s.tables touch previous ++ alertsToPrevious s.tables touch previous)
        monitor := .checking } := by
  apply if_neg
  have hall : previous.all sliceable :=
    List.all_eq_true.mpr (h.previous touch previous hmonitor)
  simp [hall]

lemma step (h : Running s) (hi : i.Sliceable) (hstep : FileActivity.step s i = some s') :
    Running s' := by
  have hsame (path : String) : s.touches.accesses path ⊆ s.touches.accesses path :=
    List.Subset.refl _
  obtain ⟨now, rfl, hmonitor, rfl⟩ | ⟨now, index, rfl, hmonitor, rfl⟩ |
    ⟨touch, now, rfl, hmonitor, rfl⟩ | ⟨rfl, hmonitor, rfl⟩ | ⟨touch, rfl, hmonitor, rfl⟩ |
    ⟨touch, rfl, hmonitor, rfl⟩ | ⟨touch, peers, rfl, hmonitor, rfl⟩ |
    ⟨touch, previous, rfl, hmonitor, rfl⟩ | ⟨session, rfl, rfl⟩ | ⟨k, removal, rfl, hremoval, rfl⟩ |
    ⟨tables, rfl, rfl⟩ := step_cases hstep
  · unfold State.check
    split_ifs
    · refine h.of_idle rfl ?_ rfl (by simp)
      intro path
      rw [Touches.accesses_retain]
      exact List.filter_sublist.subset
    · exact h.of_idle rfl hsame rfl (by simp)
  · exact h.of_idle rfl hsame rfl (by rintro ⟨⟩)
  · exact h.receive hi now
  · exact h.of_idle rfl hsame rfl (by simp)
  · refine ⟨h.tables, h.accesses, ?_, by rintro _ _ ⟨⟩, by rintro _ _ ⟨⟩, by rintro ⟨⟩⟩
    rintro touch' ⟨⟩
    exact h.touch touch (by rw [hmonitor]; rfl)
  · exact h.seek hmonitor
  · exact h.lookUp hmonitor
  · rw [h.alert_eq hmonitor]
    exact h.of_idle rfl hsame rfl (by simp)
  · exact h.of_environment h.tables hsame rfl
  · refine h.of_environment h.tables ?_ rfl
    intro path
    rw [State.finishRemoval, Touches.accesses_retain]
    exact List.filter_sublist.subset
  · exact h.of_environment hi hsame rfl

lemma of_exec (h : Running s) (his : ∀ i ∈ is, i.Sliceable)
    (hs' : exec FileActivity.step s is = some s') : Running s' :=
  exec_invariant_of_guarded (fun _ _ _ h hi hstep => h.step hi hstep)
    (guarded_of_forall_mem fun i hi _ => his i hi) h hs'

end Running

lemma running_start {tables : SwarmTables} (htables : SliceableTables tables) (now : Nat) :
    Running (start tables now) where
  tables := htables
  accesses _ access haccess := nomatch (show access ∈ [] from haccess)
  touch := by rintro _ ⟨⟩
  peers := by rintro _ _ ⟨⟩
  previous := by rintro _ _ ⟨⟩
  monitor := by rintro ⟨⟩

/-! ### Every conflict is told -/

/-- The move drops nothing of what the session did at an instant. -/
def Move.Keeps (session : String) (timestamp : Nat) : Move → Prop
  | check now => now - timestamp < touchExpiry
  | beginRemoval leaving => leaving ≠ session
  | _ => True

/-- The access is there, and no removal is about to take it away. -/
structure Stays (path : String) (access : FileAccess) (s : State) : Prop where
  mem : access ∈ s.touches.accesses path
  removals : ∀ removal ∈ s.removals, removal.session ≠ access.sessionId

lemma Stays.step (h : Stays path access s) (hi : i.Keeps access.sessionId access.timestamp)
    (hstep : FileActivity.step s i = some s') : Stays path access s' := by
  obtain ⟨now, rfl, hmonitor, rfl⟩ | ⟨now, index, rfl, hmonitor, rfl⟩ |
    ⟨touch, now, rfl, hmonitor, rfl⟩ | ⟨rfl, hmonitor, rfl⟩ | ⟨touch, rfl, hmonitor, rfl⟩ |
    ⟨touch, rfl, hmonitor, rfl⟩ | ⟨touch, peers, rfl, hmonitor, rfl⟩ |
    ⟨touch, previous, rfl, hmonitor, rfl⟩ | ⟨session, rfl, rfl⟩ | ⟨k, removal, rfl, hremoval, rfl⟩ |
    ⟨tables, rfl, rfl⟩ := step_cases hstep
  · unfold State.check
    split_ifs
    · refine ⟨?_, h.removals⟩
      rw [Touches.accesses_retain]
      exact List.mem_filter.mpr ⟨h.mem, decide_eq_true hi⟩
    · exact ⟨h.mem, h.removals⟩
  · exact ⟨h.mem, h.removals⟩
  · refine ⟨?_, h.removals⟩
    rw [State.receive, Touches.accesses_record]
    exact List.mem_append_left _ h.mem
  · exact ⟨h.mem, h.removals⟩
  · exact ⟨h.mem, h.removals⟩
  · exact ⟨h.mem, h.removals⟩
  · obtain ⟨monitor, heq, -⟩ := s.lookUp_eq peers
    rw [heq]
    exact ⟨h.mem, h.removals⟩
  · obtain ⟨monitor, sent, heq, -⟩ := s.alert_eq previous
    rw [heq]
    exact ⟨h.mem, h.removals⟩
  · refine ⟨h.mem, ?_⟩
    intro removal hremoval
    rcases List.mem_append.mp hremoval with hremoval | hremoval
    · exact h.removals removal hremoval
    · rw [List.mem_singleton.mp hremoval]
      exact hi
  · have hother : removal.session ≠ access.sessionId :=
      h.removals removal (List.mem_of_getElem? hremoval)
    refine ⟨?_, fun other hmem => h.removals other (List.mem_of_mem_eraseIdx hmem)⟩
    rw [State.finishRemoval, Touches.accesses_retain, List.mem_filter]
    refine ⟨h.mem, ?_⟩
    simp [Removal.selects, hother.symm]
  · exact ⟨h.mem, h.removals⟩

/-- Between the look-up and the alerts the monitor waits. -/
lemma alerting_of_exec (hmonitor : s.monitor = .alerting touch previous) (hls : .alert ∉ ls)
    (hu : exec step s ls = some u) :
    u.monitor = .alerting touch previous ∧ u.alerts = s.alerts := by
  have hguarded : Guarded step (fun _ i => i ∈ ls) s ls := guarded_of_forall_mem fun i hi _ => hi
  refine exec_invariant_of_guarded
    (I := fun t => t.monitor = .alerting touch previous ∧ t.alerts = s.alerts) ?_ hguarded
    ⟨hmonitor, rfl⟩ hu
  rintro t i t' ⟨hmonitor, halerts⟩ hi hstep
  cases i with
  | alert => exact absurd hi hls
  | beginRemoval session =>
    cases hstep
    exact ⟨hmonitor, halerts⟩
  | setTables tables =>
    cases hstep
    exact ⟨hmonitor, halerts⟩
  | finishRemoval k =>
    obtain ⟨removal, -, rfl⟩ := Option.map_eq_some_iff.mp hstep
    exact ⟨hmonitor, halerts⟩
  | check | store | receive | skip | index | seek | lookUp => simp [step, hmonitor] at hstep

/-- What is said of each session is said once where each session is there once. -/
lemma filter_filterMap_of_nodup {f : FileAccess → Option Alert} {q : Alert → Bool}
    (hnodup : (previous.map FileAccess.sessionId).Nodup) (hprev : prev ∈ previous)
    (hq : ∀ other ∈ previous, ∀ alert ∈ f other,
      (q alert ↔ other.sessionId = prev.sessionId)) :
    (previous.filterMap f).filter q = (f prev).toList := by
  induction previous with
  | nil => cases hprev
  | cons other previous ih =>
    obtain ⟨hhead, htail⟩ := List.nodup_cons.mp hnodup
    have hq' := fun x hx => hq x (List.mem_cons_of_mem other hx)
    have hfirst : (f other).toList.filter q =
        if other.sessionId = prev.sessionId then (f other).toList else [] := by
      have hother := hq other List.mem_cons_self
      cases hf : f other with
      | none => simp
      | some alert =>
        rw [Option.toList_some, List.filter_singleton, cond_eq_ite]
        exact if_congr (hother alert hf) rfl rfl
    have hcons : (List.filterMap f (other :: previous)).filter q =
        (f other).toList.filter q ++ (previous.filterMap f).filter q := by
      rw [List.filterMap_cons, ← List.filter_append]
      cases f other <;> rfl
    rw [hcons, hfirst]
    rcases List.mem_cons.mp hprev with rfl | hprev
    · -- no other one is from this session
      have hnone : (previous.filterMap f).filter q = [] := by
        rw [List.filter_eq_nil_iff]
        intro alert halert
        obtain ⟨x, hx, hfx⟩ := List.mem_filterMap.mp halert
        rw [hq' x hx alert hfx]
        intro hsession
        exact hhead (hsession ▸ List.mem_map_of_mem hx)
      rw [if_pos rfl, hnone, List.append_nil]
    · have hne : other.sessionId ≠ prev.sessionId := by
        intro hsession
        exact hhead (hsession ▸ List.mem_map_of_mem hprev)
      rw [if_neg hne, List.nil_append, ih htail hprev hq']

/-- What is sent to a session about another one. -/
def sentTo (alerts : List Alert) (recipient fromSession : String) : List Alert :=
  alerts.filter fun alert => alert.recipient = recipient && alert.fromSession = fromSession

lemma sentTo_alertsToCurrent {tables : SwarmTables} {member : SwarmMember} {head : String}
    (hnodup : (previous.map FileAccess.sessionId).Nodup) (hprev : prev ∈ previous)
    (hall : ∀ prev ∈ previous, Sliceable prev.sessionId)
    (hmember : tables.members touch.sessionId = some member)
    (hhead : textHead prev.sessionId 8 = some head) :
    sentTo (alertsToCurrent tables touch previous) touch.sessionId prev.sessionId =
      [alertToCurrent tables touch prev head] := by
  have htake : previous.takeWhile sliceable = previous := List.takeWhile_eq_self_iff.mpr hall
  rw [sentTo, alertsToCurrent, hmember, Option.isSome_some, if_pos rfl, htake,
    filter_filterMap_of_nodup hnodup hprev, hhead]
  · rfl
  · intro other hother alert halert
    obtain ⟨head', -, rfl⟩ := Option.map_eq_some_iff.mp halert
    rw [Bool.and_eq_true, decide_eq_true_iff, decide_eq_true_iff]
    exact and_iff_right rfl

lemma sentTo_alertsToPrevious {tables : SwarmTables} {member : SwarmMember} {head : String}
    (hnodup : (previous.map FileAccess.sessionId).Nodup) (hprev : prev ∈ previous)
    (hmember : tables.members prev.sessionId = some member)
    (hhead : shortId touch.sessionId = some head) :
    sentTo (alertsToPrevious tables touch previous) prev.sessionId touch.sessionId =
      [alertToPrevious tables touch prev head] := by
  rw [sentTo, alertsToPrevious, filter_filterMap_of_nodup hnodup hprev, hmember, hhead]
  · rfl
  · intro other hother alert halert
    obtain ⟨member', -, halert⟩ := Option.bind_eq_some_iff.mp halert
    obtain ⟨head', -, rfl⟩ := Option.map_eq_some_iff.mp halert
    rw [Bool.and_eq_true, decide_eq_true_iff, decide_eq_true_iff]
    exact and_iff_left rfl

/-- Nobody else is told. -/
lemma sentTo_eq_nil {alerts : List Alert} {recipient fromSession : String}
    (h : ∀ alert ∈ alerts, alert.recipient = recipient → alert.fromSession ≠ fromSession) :
    sentTo alerts recipient fromSession = [] := by
  rw [sentTo, List.filter_eq_nil_iff]
  intro alert halert
  simpa using h alert halert

lemma recipient_of_mem_alertsToCurrent {tables : SwarmTables} {alert : Alert}
    (h : alert ∈ alertsToCurrent tables touch previous) : alert.recipient = touch.sessionId := by
  unfold alertsToCurrent at h
  split_ifs at h
  · obtain ⟨prev, -, h⟩ := List.mem_filterMap.mp h
    obtain ⟨head, -, rfl⟩ := Option.map_eq_some_iff.mp h
    rfl
  · cases h

lemma fromSession_of_mem_alertsToPrevious {tables : SwarmTables} {alert : Alert}
    (h : alert ∈ alertsToPrevious tables touch previous) :
    alert.fromSession = touch.sessionId := by
  obtain ⟨prev, -, h⟩ := List.mem_filterMap.mp h
  obtain ⟨member, -, h⟩ := Option.bind_eq_some_iff.mp h
  obtain ⟨head, -, rfl⟩ := Option.map_eq_some_iff.mp h
  rfl

/-- A session has modified a file, and no removal and no cleanup drops that before a peer modifies
the file too. Then both are told, once each, whatever happens to the swarm before the alerts go
out. -/
theorem sentTo_of_conflict {tables : SwarmTables} {now prevNow : Nat} {prevTouch : FileTouch}
    {peers : Finset String} {member prevMember : SwarmMember}
    (htables : SliceableTables tables)
    (hids : ∀ i ∈ is ++ .receive prevTouch prevNow :: js ++ .lookUp :: ls, i.Sliceable)
    (hs : exec step (start tables now) is = some s)
    (hremovals : ∀ removal ∈ s.removals, removal.session ≠ prevTouch.sessionId)
    (hw : exec step s (.receive prevTouch prevNow :: js) = some w)
    (hjs : ∀ i ∈ js, i.Keeps prevTouch.sessionId prevNow)
    (hmonitor : w.monitor = .lookingUp touch peers)
    (hpath : prevTouch.path = touch.path) (hne : prevTouch.sessionId ≠ touch.sessionId)
    (hmodified : prevTouch.op.isModification) (hmodifies : touch.op.isModification)
    (hpeer : prevTouch.sessionId ∈ peers)
    (hu : exec step w (.lookUp :: ls) = some u) (hls : .alert ∉ ls)
    (hv : step u .alert = some v)
    (hmember : u.tables.members touch.sessionId = some member)
    (hprevMember : u.tables.members prevTouch.sessionId = some prevMember) :
    ∃ prev sent head head', prev.sessionId = prevTouch.sessionId ∧ prevNow ≤ prev.timestamp ∧
      LatestOfPeer (w.touches.accesses touch.path) touch.sessionId peers prev ∧
      v.alerts = w.alerts ++ sent ∧
      sentTo sent touch.sessionId prevTouch.sessionId =
        [alertToCurrent u.tables touch prev head] ∧
      sentTo sent prevTouch.sessionId touch.sessionId =
        [alertToPrevious u.tables touch prev head'] := by
  -- the ids can be cut in every state
  have hrunning := (running_start htables now).of_exec
    (fun i hi => hids i (List.mem_append_left _ (List.mem_append_left _ hi))) hs
  have hrunning' := hrunning.of_exec
    (fun i hi => hids i (List.mem_append_left _ (List.mem_append_right _ hi))) hw
  have hrunning'' := hrunning'.of_exec (fun i hi => hids i (List.mem_append_right _ hi)) hu
  -- the access is still there when it is looked up
  have hstays : Stays prevTouch.path (prevTouch.access prevNow) w := by
    obtain ⟨m, hm, hmw⟩ := exec_cons_eq_some.mp hw
    have hrecorded : Stays prevTouch.path (prevTouch.access prevNow) m := by
      have hreceiving : s.monitor = .receiving := by
        rw [step] at hm
        split at hm
        next hreceiving => exact hreceiving
        next => cases hm
      rw [step, hreceiving] at hm
      cases hm
      refine ⟨?_, hremovals⟩
      rw [State.receive, Touches.accesses_record, if_pos rfl]
      exact List.mem_append_right _ (List.mem_singleton_self _)
    exact exec_invariant_of_guarded (fun _ _ _ h hi hstep => h.step hi hstep)
      (guarded_of_forall_mem fun i hi _ => hjs i hi) hrecorded hmw
  have hisPeer : peerModification touch.sessionId peers (prevTouch.access prevNow) := by
    simp [peerModification, FileTouch.access, hne, hpeer, hmodified]
  obtain ⟨prev, hprev, hsession, htimestamp⟩ :=
    exists_mem_latestPeerTouches (hpath ▸ hstays.mem) hisPeer
  have hsession : prev.sessionId = prevTouch.sessionId := hsession
  -- so the monitor has somebody to tell
  obtain ⟨m, hm, hmu⟩ := exec_cons_eq_some.mp hu
  rw [step, hmonitor] at hm
  obtain rfl := Option.some.inj hm
  obtain ⟨monitor, heq, ⟨rfl, hnone⟩ | rfl⟩ := hrunning'.lookUp_eq hmonitor
  · rw [hnone hmodifies] at hprev
    cases hprev
  obtain ⟨halerting, halerts⟩ := alerting_of_exec (by rw [heq]) hls hmu
  rw [step, halerting] at hv
  obtain rfl := Option.some.inj hv
  have hall := hrunning''.previous touch _ halerting
  obtain ⟨head, hhead⟩ := Option.isSome_iff_exists.mp (hall prev hprev)
  obtain ⟨head', hhead'⟩ := Option.isSome_iff_exists.mp
    (hrunning''.touch touch (by rw [halerting]; rfl)).isSome_shortId
  have hnodup := nodup_latestPeerTouches (w.touches.accesses touch.path) touch.sessionId peers
  have hsent := congrArg State.alerts (hrunning''.alert_eq halerting)
  rw [halerts, heq] at hsent
  refine ⟨prev, _, head, head', hsession, htimestamp, latestOfPeer_of_mem hprev, hsent, ?_, ?_⟩
  · rw [sentTo, List.filter_append, ← sentTo, ← sentTo, ← hsession,
      sentTo_alertsToCurrent hnodup hprev hall hmember hhead, sentTo_eq_nil, List.append_nil]
    intro alert halert _ hfrom
    rw [fromSession_of_mem_alertsToPrevious halert, hsession] at hfrom
    exact hne hfrom.symm
  · rw [sentTo, List.filter_append, ← sentTo, ← sentTo, ← hsession,
      sentTo_alertsToPrevious hnodup hprev (hsession ▸ hprevMember) hhead', sentTo_eq_nil,
      List.nil_append]
    intro alert halert hrecipient
    rw [recipient_of_mem_alertsToCurrent halert, hsession] at hrecipient
    exact absurd hrecipient.symm hne

lemma sliceableTables_sampleTables : SliceableTables sampleTables := by
  intro swarm id hid
  simp only [sampleTables] at hid
  split_ifs at hid
  · simp only [Finset.mem_insert, Finset.mem_singleton] at hid
    rcases hid with rfl | rfl <;> rfl
  · cases hid

theorem sentTo_sampleEdits : ∃ (prev : FileAccess) (sent : List Alert) (head : String),
    prev.sessionId = "session_fox" ∧ sentTo sent "session_owl" "session_fox" =
      [alertToCurrent sampleTables (sampleTouch "session_owl" "README.md") prev head] := by
  have hids : ∀ i ∈ [.check 0] ++ sampleEdits ++ [.lookUp], Move.Sliceable i := by
    simp only [sampleEdits, List.cons_append, List.nil_append, List.forall_mem_cons]
    exact ⟨trivial, rfl, trivial, trivial, trivial, trivial, rfl, trivial, trivial, trivial,
      List.forall_mem_nil _⟩
  have hjs : ∀ i ∈ sampleEdits.tail, Move.Keeps "session_fox" 1 i := by
    simp only [sampleEdits, List.tail_cons, List.forall_mem_cons]
    exact ⟨trivial, trivial, trivial, show 2 - 1 < touchExpiry by decide, trivial, trivial, trivial,
      List.forall_mem_nil _⟩
  obtain ⟨prev, sent, head, -, hsession, -, -, -, hsent, -⟩ :=
    sentTo_of_conflict sliceableTables_sampleTables hids
      (show exec step (start sampleTables 0) [.check 0] = some _ from rfl) (List.forall_mem_nil _)
      (show exec step _ sampleEdits = some _ from rfl) hjs rfl rfl (by decide) rfl rfl (by decide)
      rfl List.not_mem_nil rfl rfl rfl
  exact ⟨prev, sent, head, hsession, hsent⟩

/-! ### Line ranges -/

/-- The summary of a touch by the edit tool: `newLines` lines replace what starts at `startLine`. -/
def editSummary (startLine newLines occurrences : Nat) : String :=
  let endLine := startLine + (newLines - 1)
  "edited lines " ++ toString startLine ++ "-" ++ toString endLine ++ " (" ++
    toString occurrences ++ " occurrence" ++ (if occurrences = 1 then "" else "s") ++ ")"

variable {n a b : Nat} {rest : List Char}

lemma toList_toString (n : Nat) : (toString n).toList = Nat.toDigits 10 n := by
  simp [toString, Nat.repr]

lemma takeDigits_append (hrest : ∀ c ∈ rest.head?, ¬ c.isDigit) :
    takeDigits (Nat.toDigits 10 n ++ rest) = Nat.toDigits 10 n := by
  have hdigits : ∀ c ∈ Nat.toDigits 10 n, c.isDigit :=
    fun c hc => Nat.isDigit_of_mem_toDigits (by decide) (by decide) hc
  rw [takeDigits, List.takeWhile_append_of_pos hdigits]
  cases rest with
  | nil => simp
  | cons c rest => simp [hrest c rfl]

lemma parseU64_toDigits (h : n < 2 ^ 64) : parseU64 (Nat.toDigits 10 n) = some n := by
  rw [parseU64, if_neg Nat.toDigits_ne_nil, Nat.ofDigitChars_ten_toDigits]
  exact if_pos h

lemma parseLineRange_append (ha : a < 2 ^ 64) (hb : b < 2 ^ 64)
    (hrest : ∀ c ∈ rest.head?, ¬ c.isDigit) :
    parseLineRange (Nat.toDigits 10 a ++ '-' :: (Nat.toDigits 10 b ++ rest)) =
      some (min a b, max a b) := by
  have hdash : ∀ c ∈ ('-' :: (Nat.toDigits 10 b ++ rest)).head?, ¬ c.isDigit := by
    rintro c ⟨⟩
    decide
  rw [parseLineRange, takeDigits_append hdash, parseU64_toDigits ha, List.drop_left,
    Option.map_some]
  show some (min a ((parseU64 (takeDigits _)).getD a), max a ((parseU64 (takeDigits _)).getD a)) = _
  rw [takeDigits_append hrest, parseU64_toDigits hb]
  rfl

lemma parseFileActivityLineRange_of_splitFirst {text : String} {before : List Char}
    (h : splitFirst "lines ".toList text.toList = some (before, rest)) :
    parseFileActivityLineRange (some text) = parseLineRange rest := by
  rw [parseFileActivityLineRange, Option.bind_some, h]

/-- The lines are read back from the summary of an edit. -/
lemma parseFileActivityLineRange_editSummary {startLine newLines occurrences : Nat}
    (hbound : startLine + newLines < 2 ^ 64) :
    parseFileActivityLineRange (some (editSummary startLine newLines occurrences)) =
      some (startLine, startLine + (newLines - 1)) := by
  have hsplit : splitFirst "lines ".toList "edited lines ".toList =
      some ("edited ".toList, []) := by decide
  obtain ⟨more, htext⟩ : ∃ more, (editSummary startLine newLines occurrences).toList =
      "edited lines ".toList ++ (Nat.toDigits 10 startLine ++
        '-' :: (Nat.toDigits 10 (startLine + (newLines - 1)) ++ ' ' :: more)) := by
    unfold editSummary
    simp only [String.toList_append, toList_toString, List.append_assoc]
    exact ⟨_, rfl⟩
  have hspace : ∀ c ∈ (' ' :: more).head?, ¬ c.isDigit := by
    rintro c ⟨⟩
    decide
  have hfirst : splitFirst "lines ".toList (editSummary startLine newLines occurrences).toList =
      some ("edited ".toList, Nat.toDigits 10 startLine ++
        '-' :: (Nat.toDigits 10 (startLine + (newLines - 1)) ++ ' ' :: more)) := by
    rw [htext]
    exact splitFirst_append hsplit
  rw [parseFileActivityLineRange_of_splitFirst hfirst,
    parseLineRange_append (by omega) (by omega) hspace, min_eq_left (by omega),
    max_eq_right (by omega)]

end Jcode.FileActivity
