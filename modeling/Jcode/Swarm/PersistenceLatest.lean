import Jcode.Swarm.Persistence

/-!
# What a reload recovers

A state file is replaced by moving its previous version to a backup in the same directory, and
`load_runtime_state` reads every file of the directory. The reload gives the state of the last
call exactly when the backup has nothing to add to it.
-/

namespace Jcode

/-! ### The recovered forms -/

/-- A plan as it is after a reload: running tasks are stale since the plan was written. -/
def recoverPlan (plan : VersionedPlan) (nowMs : Nat) : VersionedPlan :=
  let recovered := recoverItems nowMs plan.taskProgress plan.items
  { plan with items := recovered.1, taskProgress := recovered.2 }

/-- A member as it is after a reload: running and headless members have crashed. -/
def recoverMember (member : SwarmMember) : SwarmMember :=
  let recovered := recoverMemberStatus (.ofString member.status) member.detail member.isHeadless
  { member with status := recovered.1.asStr, detail := recovered.2 }

lemma fromPersistedPlan_toPersistedPlan (plan : VersionedPlan) (nowMs : Nat) :
    fromPersistedPlan (toPersistedPlan plan) nowMs = recoverPlan plan nowMs := by
  simp [fromPersistedPlan, toPersistedPlan, recoverPlan]

lemma fromPersistedMember_durableRecord (member : SwarmMember) :
    fromPersistedMember member.durableRecord = recoverMember member := by
  simp [fromPersistedMember, SwarmMember.durableRecord, recoverMember, SwarmMember.fromRecord]

/-- Nothing of the items changes but the status of running tasks. -/
lemma recoverPlan_items (plan : VersionedPlan) (nowMs : Nat) :
    (recoverPlan plan nowMs).items = plan.items.map fun item =>
      if item.status = "running" then { item with status := "running_stale" } else item := by
  have hloop (items : List PlanItem) (progress : Finmap fun _ : String => SwarmTaskProgress) :
      (recoverItems nowMs progress items).1 = items.map fun item =>
        if item.status = "running" then { item with status := "running_stale" } else item := by
    induction items generalizing progress with
    | nil => rfl
    | cons item items ih =>
      unfold recoverItems
      split_ifs with hrunning <;> simp [hrunning, ih]
  exact hloop plan.items plan.taskProgress

/-- Nothing of the progress changes but where a running task gets the time since it is stale. -/
lemma recoverPlan_progress (plan : VersionedPlan) (nowMs : Nat) (id : String) :
    (recoverPlan plan nowMs).taskProgress.lookup id =
      if ∃ item ∈ plan.items, item.status = "running" ∧ item.id = id then
        some (markStale nowMs ((plan.taskProgress.lookup id).getD .default))
      else plan.taskProgress.lookup id := by
  have hidem (entry : SwarmTaskProgress) :
      markStale nowMs (markStale nowMs entry) = markStale nowMs entry := by
    cases h : entry.staleSinceUnixMs <;> simp [markStale, h]
  have hloop (items : List PlanItem) (progress : Finmap fun _ : String => SwarmTaskProgress) :
      (recoverItems nowMs progress items).2.lookup id =
        if ∃ item ∈ items, item.status = "running" ∧ item.id = id then
          some (markStale nowMs ((progress.lookup id).getD .default))
        else progress.lookup id := by
    induction items generalizing progress with
    | nil => simp [recoverItems]
    | cons item items ih =>
      unfold recoverItems
      by_cases hrunning : item.status = "running"
      · rw [if_pos hrunning]
        dsimp only
        rw [ih]
        by_cases hid : item.id = id
        · subst hid
          simp [hrunning, hidem]
        · simp [hrunning, hid, Finmap.lookup_insert_of_ne _ (Ne.symm hid)]
      · simp [hrunning, ih]
  exact hloop plan.items plan.taskProgress

/-! ### What a call leaves to be recovered -/

/-- One call that changes the state directory. -/
inductive SwarmStateCall
  | persist (plan : Option VersionedPlan) (coordinatorSessionId : Option String)
      (members : List SwarmMember) (nowMs pid nonce : Nat)
  | remove

/-- The state a reload should give after the call. -/
def SwarmStateCall.recovered (swarmId : String) : SwarmStateCall → LoadedSwarmRuntimeState
  | persist plan coordinatorSessionId members nowMs _ _ =>
    { plans := fun id => if id = swarmId then plan.map (recoverPlan · nowMs) else none
      coordinators := fun id => if id = swarmId then coordinatorSessionId else none
      members := fun session => ((members.filter fun member =>
        member.sessionId = session ∧ member.swarmId.isSome).getLast?).map recoverMember
      swarmsById := fun id =>
        ((members.filter (·.swarmId = some id)).map (·.sessionId)).toFinset }
  | remove => .empty

namespace LoadedSwarmRuntimeState

/-- `upper` where it says something, `lower` elsewhere. -/
def overlay (upper lower : LoadedSwarmRuntimeState) : LoadedSwarmRuntimeState where
  plans id := (upper.plans id).or (lower.plans id)
  coordinators id := (upper.coordinators id).or (lower.coordinators id)
  members session := (upper.members session).or (lower.members session)
  swarmsById id := upper.swarmsById id ∪ lower.swarmsById id

/-- Whatever `small` says, `large` says as well. -/
structure Within (small large : LoadedSwarmRuntimeState) : Prop where
  plans : ∀ id plan, small.plans id = some plan → large.plans id = some plan
  coordinators : ∀ id session, small.coordinators id = some session →
    large.coordinators id = some session
  members : ∀ session member, small.members session = some member →
    large.members session = some member
  swarmsById : ∀ id, small.swarmsById id ⊆ large.swarmsById id

variable {upper lower : LoadedSwarmRuntimeState}

private lemma or_eq_right {α : Type} {a b : Option α} :
    a.or b = b ↔ ∀ x, a = some x → b = some x := by
  cases a <;> simp [eq_comm]

private lemma or_eq_left {α : Type} {a b : Option α} (h : ∀ x, b = some x → a = some x) :
    a.or b = a := by
  cases a with
  | some x => rfl
  | none =>
    cases b with
    | none => rfl
    | some x => exact (h x rfl).symm

@[ext] lemma ext {a b : LoadedSwarmRuntimeState} (hplans : ∀ id, a.plans id = b.plans id)
    (hcoordinators : ∀ id, a.coordinators id = b.coordinators id)
    (hmembers : ∀ session, a.members session = b.members session)
    (hswarms : ∀ id, a.swarmsById id = b.swarmsById id) : a = b := by
  cases a
  cases b
  simp only [mk.injEq]
  exact ⟨funext hplans, funext hcoordinators, funext hmembers, funext hswarms⟩

@[simp] lemma overlay_empty : upper.overlay empty = upper := by
  ext <;> simp [overlay, empty]

@[simp] lemma empty_overlay : empty.overlay lower = lower := by
  ext <;> simp [overlay, empty]

/-- A state laid over one that agrees with all it says changes nothing. -/
lemma overlay_eq_right_iff : upper.overlay lower = lower ↔ upper.Within lower := by
  constructor
  · intro h
    exact ⟨fun id => or_eq_right.mp (congrArg (plans · id) h),
      fun id => or_eq_right.mp (congrArg (coordinators · id) h),
      fun session => or_eq_right.mp (congrArg (members · session) h),
      fun id => Finset.union_eq_right.mp (congrArg (swarmsById · id) h)⟩
  · intro h
    ext id : 1
    · exact or_eq_right.mpr (h.plans id)
    · exact or_eq_right.mpr (h.coordinators id)
    · exact or_eq_right.mpr (h.members id)
    · exact Finset.union_eq_right.mpr (h.swarmsById id)

/-- Laid under it, it changes nothing either. -/
lemma Within.overlay_eq_left (h : lower.Within upper) : upper.overlay lower = upper := by
  ext id : 1
  · exact or_eq_left (h.plans id)
  · exact or_eq_left (h.coordinators id)
  · exact or_eq_left (h.members id)
  · exact Finset.union_eq_left.mpr (h.swarmsById id)

/-! ### The loops of the loader -/

lemma foldl_addMember (records : List SwarmMemberRecord) (loaded : LoadedSwarmRuntimeState) :
    records.foldl addMember loaded = overlay
      { plans := fun _ => none
        coordinators := fun _ => none
        members := fun session => ((records.filter fun record =>
          record.sessionId = session ∧ record.swarmId.isSome).getLast?).map fromPersistedMember
        swarmsById := fun id =>
          ((records.filter (·.swarmId = some id)).map (·.sessionId)).toFinset } loaded := by
  induction records generalizing loaded with
  | nil => ext <;> simp [overlay]
  | cons record records ih =>
    rw [List.foldl_cons, ih]
    cases hswarm : record.swarmId with
    | none => ext <;> simp [overlay, addMember, hswarm]
    | some swarmId =>
      ext id : 1
      · simp [overlay, addMember, hswarm]
      · simp [overlay, addMember, hswarm]
      · by_cases hsession : record.sessionId = id
        · subst hsession
          simp [overlay, addMember, hswarm]
        · simp [overlay, addMember, hswarm, hsession, Function.update_of_ne (Ne.symm hsession)]
      · by_cases hid : swarmId = id
        · subst hid
          ext session
          simp [overlay, addMember, hswarm]
        · simp [overlay, addMember, hswarm, hid, Function.update_of_ne (Ne.symm hid)]

end LoadedSwarmRuntimeState

open LoadedSwarmRuntimeState

/-- Sorting by session id keeps the members of one session in their order. -/
lemma filter_insertionSort_sessionId {members : List SwarmMember} {p : SwarmMember → Bool}
    (session : String) (hp : ∀ member, p member → member.sessionId = session) :
    (members.insertionSort (·.sessionId ≤ ·.sessionId)).filter p = members.filter p := by
  have hperm := (List.perm_insertionSort (·.sessionId ≤ ·.sessionId) members).filter p
  have hsub : (members.filter p).Sublist (members.insertionSort (·.sessionId ≤ ·.sessionId)) := by
    refine List.sublist_insertionSort (List.pairwise_of_forall_mem_list fun a ha b hb => ?_)
      List.filter_sublist
    rw [hp a (List.mem_filter.mp ha).2, hp b (List.mem_filter.mp hb).2]
  have hfilter := hsub.filter p
  rw [List.filter_filter] at hfilter
  simp only [Bool.and_self] at hfilter
  exact (hfilter.eq_of_length hperm.length_eq.symm).symm

/-- Loading the state of a call lays what the call leaves over what was loaded before. -/
lemma addState_persisted (loaded : LoadedSwarmRuntimeState) (swarmId : String)
    (plan : Option VersionedPlan) (coordinatorSessionId : Option String)
    (members : List SwarmMember) (nowMs pid nonce : Nat) :
    loaded.addState (persistedSwarmState swarmId plan coordinatorSessionId members nowMs) =
      ((SwarmStateCall.persist plan coordinatorSessionId members nowMs pid nonce).recovered
        swarmId).overlay loaded := by
  have hsorted : (members.map SwarmMember.durableRecord).insertionSort
      (·.sessionId ≤ ·.sessionId) =
        (members.insertionSort (·.sessionId ≤ ·.sessionId)).map SwarmMember.durableRecord :=
    (List.map_insertionSort _ _ SwarmMember.durableRecord members fun a _ b _ => Iff.rfl).symm
  unfold addState persistedSwarmState
  rw [foldl_addMember, hsorted]
  ext id : 1
  · cases plan with
    | none => simp [overlay, SwarmStateCall.recovered]
    | some plan =>
      by_cases hid : id = swarmId <;>
        simp [overlay, SwarmStateCall.recovered, hid, fromPersistedPlan_toPersistedPlan]
  · cases coordinatorSessionId with
    | none => simp [overlay, SwarmStateCall.recovered]
    | some session =>
      by_cases hid : id = swarmId <;> simp [overlay, SwarmStateCall.recovered, hid]
  · have hfilter : (members.insertionSort (·.sessionId ≤ ·.sessionId)).filter
        (fun member => member.sessionId = id ∧ member.swarmId.isSome) = members.filter
          fun member => member.sessionId = id ∧ member.swarmId.isSome :=
      filter_insertionSort_sessionId id fun member hmember =>
        (of_decide_eq_true hmember).1
    have hrecords : ((members.insertionSort (·.sessionId ≤ ·.sessionId)).map
        SwarmMember.durableRecord).filter (fun record => record.sessionId = id ∧
          record.swarmId.isSome) = (members.filter fun member => member.sessionId = id ∧
            member.swarmId.isSome).map SwarmMember.durableRecord := by
      rw [List.filter_map, ← hfilter]
      rfl
    simp only [overlay, hrecords, List.getLast?_map, Option.map_map, Option.none_or,
      SwarmStateCall.recovered]
    simp only [Function.comp_def, fromPersistedMember_durableRecord]
  · have hperm := List.perm_insertionSort (·.sessionId ≤ ·.sessionId) members
    simp only [overlay, SwarmStateCall.recovered]
    congr 1
    ext session
    simp [SwarmMember.durableRecord]

/-! ### The files after a history of calls -/

/-- The call writes a state file. -/
def SwarmStateCall.writes : SwarmStateCall → Bool
  | persist plan coordinatorSessionId members _ _ _ =>
    !(plan.isNone && coordinatorSessionId.isNone && members.isEmpty)
  | remove => false

/-- The calls whose states are in the state file and in its backup. -/
structure StoredCalls where
  current : Option SwarmStateCall
  backup : Option SwarmStateCall

/-- A call that writes moves the state file to the backup; one that removes leaves the backup. -/
def StoredCalls.after (stored : StoredCalls) (call : SwarmStateCall) : StoredCalls :=
  if call.writes then ⟨some call, stored.current.or stored.backup⟩ else ⟨none, stored.backup⟩

def storedCalls (calls : List SwarmStateCall) : StoredCalls :=
  calls.foldl StoredCalls.after ⟨none, none⟩

section

variable (codec : TextCodec PersistedSwarmState) (swarmId : String)

def SwarmStateCall.apply (fs : Directory) : SwarmStateCall → Directory
  | persist plan coordinatorSessionId members nowMs pid nonce =>
    persistSwarmState codec fs swarmId plan coordinatorSessionId members nowMs
      (tmpExtension pid nonce)
  | remove => removeSwarmState fs swarmId

/-- The state directory after the calls; it was empty before them. -/
def stateDirectory (calls : List SwarmStateCall) : Directory :=
  calls.foldl (SwarmStateCall.apply codec swarmId) fun _ => none

/-- The state of a call as it is written. -/
def SwarmStateCall.bytes : SwarmStateCall → Bytes
  | persist plan coordinatorSessionId members nowMs _ _ => utf8 (codec.encode
      (persistedSwarmState swarmId plan coordinatorSessionId members nowMs))
  | remove => []

def StoredCalls.files (stored : StoredCalls) : Directory := fun path =>
  if path = statePath swarmId then stored.current.map (·.bytes codec swarmId)
  else if path = (statePath swarmId).withExtension "bak" then
    stored.backup.map (·.bytes codec swarmId)
  else none

end

variable {codec : TextCodec PersistedSwarmState} {swarmId : String}

lemma statePath_ne_bak : statePath swarmId ≠ (statePath swarmId).withExtension "bak" := by
  simp [statePath, FileName.withExtension]

lemma StoredCalls.apply_files (stored : StoredCalls) (call : SwarmStateCall) :
    call.apply codec swarmId (stored.files codec swarmId) =
      (stored.after call).files codec swarmId := by
  have hremove : (stored.files codec swarmId).remove (statePath swarmId) =
      StoredCalls.files codec swarmId ⟨none, stored.backup⟩ := by
    funext path
    by_cases hpath : path = statePath swarmId <;>
      simp [Directory.remove, StoredCalls.files, hpath]
  cases call with
  | remove => exact hremove
  | persist plan coordinatorSessionId members nowMs pid nonce =>
    cases hw : (plan.isNone && coordinatorSessionId.isNone && members.isEmpty) with
    | true =>
      rw [SwarmStateCall.apply, persistSwarmState, if_pos hw, hremove, StoredCalls.after,
        if_neg (by simp only [SwarmStateCall.writes, hw]; decide)]
    | false =>
      rw [SwarmStateCall.apply, persistSwarmState, if_neg (by simp only [hw]; decide),
        StoredCalls.after, if_pos (by simp only [SwarmStateCall.writes, hw]; decide)]
      have hjson : "json" ≠ tmpExtension pid nonce := (tmpExtension_ne (by decide)).symm
      have hbak : "bak" ≠ tmpExtension pid nonce := (tmpExtension_ne (by decide)).symm
      have htmp : statePath swarmId ≠ (statePath swarmId).withExtension (tmpExtension pid nonce) :=
        mt FileName.eq_withExtension.mp hjson
      funext path
      rw [writeBytesInner_apply hjson hbak (show "json" ≠ "bak" by decide)]
      by_cases htmpPath : path = (statePath swarmId).withExtension (tmpExtension pid nonce)
      · simp [htmpPath, StoredCalls.files, htmp.symm, FileName.withExtension_inj, hbak.symm]
      · rw [if_neg htmpPath]
        by_cases hpath : path = statePath swarmId
        · simp [hpath, StoredCalls.files, SwarmStateCall.bytes]
        · by_cases hbakPath : path = (statePath swarmId).withExtension "bak"
          · simp [hbakPath, StoredCalls.files, statePath_ne_bak.symm, Option.map_or]
          · simp [hpath, hbakPath, StoredCalls.files]

/-- Only the calls in the file and in the backup matter. -/
lemma stateDirectory_eq (calls : List SwarmStateCall) :
    stateDirectory codec swarmId calls = (storedCalls calls).files codec swarmId := by
  have hloop (stored : StoredCalls) :
      calls.foldl (SwarmStateCall.apply codec swarmId) (stored.files codec swarmId) =
        (calls.foldl StoredCalls.after stored).files codec swarmId := by
    induction calls generalizing stored with
    | nil => rfl
    | cons call calls ih => rw [List.foldl_cons, StoredCalls.apply_files, ih, List.foldl_cons]
  have hempty : (fun _ => none : Directory) = StoredCalls.files codec swarmId ⟨none, none⟩ := by
    funext path
    simp [StoredCalls.files]
  rw [stateDirectory, hempty, hloop, storedCalls]

/-- What is stored has been written. -/
lemma storedCalls_writes (calls : List SwarmStateCall) :
    (∀ call ∈ (storedCalls calls).current, call.writes) ∧
      ∀ call ∈ (storedCalls calls).backup, call.writes := by
  induction calls using List.reverseRecOn with
  | nil => simp [storedCalls]
  | append_singleton calls call ih =>
    have hlast : storedCalls (calls ++ [call]) = (storedCalls calls).after call := by
      simp [storedCalls]
    rw [hlast, StoredCalls.after]
    split_ifs with hw
    · refine ⟨by simpa using hw, fun other hother => ?_⟩
      rcases Option.or_eq_some_iff.mp hother with h | ⟨-, h⟩
      · exact ih.1 other h
      · exact ih.2 other h
    · exact ⟨by simp, ih.2⟩

/-! ### The reload -/

/-- The recovered state of a call, if there is one. -/
def recoveredState (swarmId : String) (call : Option SwarmStateCall) : LoadedSwarmRuntimeState :=
  (call.map (·.recovered swarmId)).getD .empty

/-- The state of the last call. -/
def latestState (swarmId : String) (calls : List SwarmStateCall) : LoadedSwarmRuntimeState :=
  recoveredState swarmId calls.getLast?

/-- The state of the call whose file was replaced last; its backup is still there. -/
def replacedState (swarmId : String) (calls : List SwarmStateCall) : LoadedSwarmRuntimeState :=
  recoveredState swarmId (storedCalls calls).backup

/-- A call that writes nothing leaves nothing to be recovered. -/
lemma SwarmStateCall.recovered_eq_empty {call : SwarmStateCall} (h : ¬ call.writes) :
    call.recovered swarmId = .empty := by
  cases call with
  | remove => rfl
  | persist plan coordinatorSessionId members nowMs pid nonce =>
    simp only [writes, Bool.not_eq_true', Bool.not_eq_false, Bool.and_eq_true,
      Option.isNone_iff_eq_none, List.isEmpty_iff] at h
    obtain ⟨⟨rfl, rfl⟩, rfl⟩ := h
    ext <;> simp [recovered, LoadedSwarmRuntimeState.empty]

lemma latestState_eq (calls : List SwarmStateCall) :
    latestState swarmId calls = recoveredState swarmId (storedCalls calls).current := by
  induction calls using List.reverseRecOn with
  | nil => rfl
  | append_singleton calls call ih =>
    have hlast : storedCalls (calls ++ [call]) = (storedCalls calls).after call := by
      simp [storedCalls]
    rw [hlast, StoredCalls.after, latestState, List.getLast?_concat]
    split_ifs with hw
    · rfl
    · exact SwarmStateCall.recovered_eq_empty hw

/-- Reading the file of a call. -/
lemma loadEntry_eq (hcodec : codec.LosslessOn PersistedSwarmState.Canonical)
    {loaded : LoadedSwarmRuntimeState} {fs : Directory} {path : FileName} {call : SwarmStateCall}
    (hw : call.writes) (hfile : fs path = some (call.bytes codec swarmId)) :
    loadEntry codec (loaded, fs) path = ((call.recovered swarmId).overlay loaded, fs) := by
  cases call with
  | remove => cases hw
  | persist plan coordinatorSessionId members nowMs pid nonce =>
    rw [loadEntry, readJson_eq hfile (hcodec _ persistedSwarmState_canonical)]
    exact congrArg (·, fs) (addState_persisted loaded swarmId plan _ members nowMs pid nonce)

/-- The files of a directory in some order. -/
def Enumerates (fs : Directory) (entries : List FileName) : Prop :=
  entries.Nodup ∧ ∀ path, path ∈ entries ↔ fs.pathExists path

private lemma eq_or_eq_of_perm_pair {α : Type} {l : List α} {a b : α} (h : l.Perm [a, b]) :
    l = [a, b] ∨ l = [b, a] := by
  obtain ⟨x, y, rfl⟩ := List.length_eq_two.mp h.length_eq
  have hx : x = a ∨ x = b := by simpa using h.mem_iff.mp List.mem_cons_self
  rcases hx with rfl | rfl
  · exact .inl (by simpa using h.cons_inv)
  · exact .inr (by simpa using (h.trans (List.Perm.swap x a [])).cons_inv)

section

variable {stored : StoredCalls} {call other : SwarmStateCall}

lemma files_statePath (h : stored.current = some call) :
    stored.files codec swarmId (statePath swarmId) = some (call.bytes codec swarmId) := by
  simp [StoredCalls.files, h]

lemma files_bak (h : stored.backup = some call) :
    stored.files codec swarmId ((statePath swarmId).withExtension "bak") =
      some (call.bytes codec swarmId) := by
  simp [StoredCalls.files, h, statePath_ne_bak.symm]

end

/-- The state file first, and then the backup. -/
def StoredCalls.entries (stored : StoredCalls) (swarmId : String) : List FileName :=
  (stored.current.map fun _ => statePath swarmId).toList ++
    (stored.backup.map fun _ => (statePath swarmId).withExtension "bak").toList

lemma enumerates_entries (codec : TextCodec PersistedSwarmState) (swarmId : String)
    (stored : StoredCalls) :
    Enumerates (stored.files codec swarmId) (stored.entries swarmId) := by
  refine ⟨?_, fun path => ?_⟩
  · cases hc : stored.current <;> cases hb : stored.backup <;>
      simp [StoredCalls.entries, hc, hb, statePath_ne_bak]
  · by_cases hpath : path = statePath swarmId
    · cases hc : stored.current <;> cases hb : stored.backup <;>
        simp [StoredCalls.entries, Directory.pathExists, StoredCalls.files, hpath, hc, hb,
          statePath_ne_bak]
    · by_cases hbak : path = (statePath swarmId).withExtension "bak" <;>
        cases hc : stored.current <;> cases hb : stored.backup <;>
        simp [StoredCalls.entries, Directory.pathExists, StoredCalls.files, hpath, hbak, hc, hb,
          statePath_ne_bak.symm]

/-- The backup is laid over the state file when it comes last. -/
lemma loadRuntimeState_entries (swarmId : String)
    (hcodec : codec.LosslessOn PersistedSwarmState.Canonical)
    {stored : StoredCalls} (hcurrent : ∀ call ∈ stored.current, call.writes)
    (hbackup : ∀ call ∈ stored.backup, call.writes) :
    loadRuntimeState codec (stored.files codec swarmId) (stored.entries swarmId) =
      (recoveredState swarmId stored.backup).overlay (recoveredState swarmId stored.current) := by
  unfold loadRuntimeState StoredCalls.entries recoveredState
  rw [List.foldl_append]
  cases hc : stored.current with
  | none =>
    cases hb : stored.backup with
    | none => simp
    | some old => simp [loadEntry_eq hcodec (hbackup old hb) (files_bak hb)]
  | some last =>
    cases hb : stored.backup with
    | none => simp [loadEntry_eq hcodec (hcurrent last hc) (files_statePath hc)]
    | some old =>
      simp [loadEntry_eq hcodec (hcurrent last hc) (files_statePath hc),
        loadEntry_eq hcodec (hbackup old hb) (files_bak hb)]

/-- In the other order, if there is one, the state file is laid over the backup. -/
lemma loadRuntimeState_eq_or (hcodec : codec.LosslessOn PersistedSwarmState.Canonical)
    {stored : StoredCalls} (hcurrent : ∀ call ∈ stored.current, call.writes)
    (hbackup : ∀ call ∈ stored.backup, call.writes) {entries : List FileName}
    (h : entries.Perm (stored.entries swarmId)) :
    entries = stored.entries swarmId ∨
      loadRuntimeState codec (stored.files codec swarmId) entries =
        (recoveredState swarmId stored.current).overlay (recoveredState swarmId stored.backup) := by
  cases hc : stored.current with
  | none => exact .inl (by cases hb : stored.backup <;> simpa [StoredCalls.entries, hc, hb] using h)
  | some last =>
    cases hb : stored.backup with
    | none => exact .inl (by simpa [StoredCalls.entries, hc, hb] using h)
    | some old =>
      have hpair : entries.Perm [statePath swarmId, (statePath swarmId).withExtension "bak"] := by
        simpa [StoredCalls.entries, hc, hb] using h
      refine (eq_or_eq_of_perm_pair hpair).imp
        (fun h => by simp [h, StoredCalls.entries, hc, hb]) ?_
      rintro rfl
      simp [loadRuntimeState, recoveredState,
        loadEntry_eq hcodec (hcurrent last hc) (files_statePath hc),
        loadEntry_eq hcodec (hbackup old hb) (files_bak hb)]

/-- After any sequence of calls on an empty directory, a reload gives the recovered state of the
last call in every order of the directory, exactly when the state in the backup says nothing but
what the last call says. -/
theorem loadRuntimeState_latestState_iff (hcodec : codec.LosslessOn PersistedSwarmState.Canonical)
    (calls : List SwarmStateCall) :
    (∀ entries, Enumerates (stateDirectory codec swarmId calls) entries →
        loadRuntimeState codec (stateDirectory codec swarmId calls) entries =
          latestState swarmId calls) ↔
      (replacedState swarmId calls).Within (latestState swarmId calls) := by
  obtain ⟨hcurrent, hbackup⟩ := storedCalls_writes calls
  have hall := enumerates_entries codec swarmId (storedCalls calls)
  have hfirst := loadRuntimeState_entries swarmId hcodec hcurrent hbackup
  rw [stateDirectory_eq, latestState_eq, replacedState]
  constructor
  · intro h
    exact overlay_eq_right_iff.mp (hfirst.symm.trans (h _ hall))
  · intro hwithin entries hentries
    have hperm : entries.Perm ((storedCalls calls).entries swarmId) :=
      (List.perm_ext_iff_of_nodup hentries.1 hall.1).mpr fun path =>
        (hentries.2 path).trans (hall.2 path).symm
    rcases loadRuntimeState_eq_or hcodec hcurrent hbackup hperm with rfl | hother
    · exact hfirst.trans (overlay_eq_right_iff.mpr hwithin)
    · exact hother.trans hwithin.overlay_eq_left

/-- A state is written, removed and written anew: there is no backup. -/
def renewedCalls : List SwarmStateCall :=
  [.persist none (some "fox") [readyAgent "fox"] 1 7 0, .remove,
    .persist none (some "owl") [readyAgent "owl"] 2 7 1]

theorem loadRuntimeState_latestState_iff_renewedCalls :
    (∀ entries, Enumerates (stateDirectory (.unary _) "swarm" renewedCalls) entries →
        loadRuntimeState (.unary _) (stateDirectory (.unary _) "swarm" renewedCalls) entries =
          latestState "swarm" renewedCalls) ↔
      (replacedState "swarm" renewedCalls).Within (latestState "swarm" renewedCalls) :=
  loadRuntimeState_latestState_iff (TextCodec.unary_losslessOn _) renewedCalls

/-- A state is written, replaced and removed: its first version is still in the backup. -/
def removedCalls : List SwarmStateCall :=
  [.persist none (some "fox") [] 1 7 0, .persist none (some "owl") [] 2 7 1, .remove]

/-- The reload brings the first coordinator of a removed swarm back. -/
theorem loadRuntimeState_revives :
    ¬ ∀ (codec : TextCodec PersistedSwarmState) (swarmId : String) (calls : List SwarmStateCall)
        (entries : List FileName), codec.LosslessOn PersistedSwarmState.Canonical →
      Enumerates (stateDirectory codec swarmId calls) entries →
      loadRuntimeState codec (stateDirectory codec swarmId calls) entries =
        latestState swarmId calls := by
  intro h
  have hstored : storedCalls removedCalls =
      ⟨none, some (.persist none (some "fox") [] 1 7 0)⟩ := rfl
  have hload := h (.unary _) "swarm" removedCalls ((storedCalls removedCalls).entries "swarm")
    (TextCodec.unary_losslessOn _) (stateDirectory_eq removedCalls ▸ enumerates_entries ..)
  rw [stateDirectory_eq, loadRuntimeState_entries _ (TextCodec.unary_losslessOn _)
    (storedCalls_writes removedCalls).1 (storedCalls_writes removedCalls).2, hstored] at hload
  have hcoordinator := congrArg (LoadedSwarmRuntimeState.coordinators · "swarm") hload
  simp [overlay, recoveredState, SwarmStateCall.recovered, latestState, removedCalls,
    LoadedSwarmRuntimeState.empty] at hcoordinator

end Jcode
