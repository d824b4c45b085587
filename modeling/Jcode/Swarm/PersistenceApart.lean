import Jcode.Swarm.PersistenceLatest

/-!
# Two swarms in one state directory

`state_path` replaces every character of a swarm id outside of letters, digits, `-` and `_`. The
calls for two swarms whose ids differ after that go to different files, and a reload mixes them
only where one session is stored for both. Two swarms whose ids agree after it share one file.
-/

namespace Jcode

open LoadedSwarmRuntimeState

def SwarmStateCall.members : SwarmStateCall → List SwarmMember
  | persist _ _ members _ _ _ => members
  | remove => []

def SwarmStateCall.sessions (call : SwarmStateCall) : List String :=
  call.members.map (·.sessionId)

/-- The members of the swarm, as `persist_swarm_state_for` selects them. -/
def SwarmStateCall.Owned (call : SwarmStateCall) (swarmId : String) : Prop :=
  ∀ member ∈ call.members, member.swarmId = some swarmId

/-- A call for a swarm. -/
structure SwarmCall where
  swarmId : String
  call : SwarmStateCall
  owned : call.Owned swarmId

/-- The calls for one swarm. -/
def callsOf (swarmId : String) (calls : List SwarmCall) : List SwarmStateCall :=
  (calls.filter (·.swarmId = swarmId)).map (·.call)

/-- What a reload gives for one swarm. -/
structure LoadedSwarm where
  plan : Option VersionedPlan
  coordinator : Option String
  sessions : Finset String
  members : String → Option SwarmMember

def LoadedSwarmRuntimeState.viewOf (loaded : LoadedSwarmRuntimeState) (swarmId : String) :
    LoadedSwarm where
  plan := loaded.plans swarmId
  coordinator := loaded.coordinators swarmId
  sessions := loaded.swarmsById swarmId
  members session := (loaded.members session).filter (·.swarmId = some swarmId)

section

variable (codec : TextCodec PersistedSwarmState)

/-- The state directory after calls for several swarms; it was empty before them. -/
def stateFiles (calls : List SwarmCall) : Directory :=
  calls.foldl (fun fs c => c.call.apply codec c.swarmId fs) fun _ => none

/-- What a reload can give for a swarm, over all orders of the directory. -/
def views (fs : Directory) (swarmId : String) : Set LoadedSwarm :=
  {view | ∃ entries, Enumerates fs entries ∧
    (loadRuntimeState codec fs entries).viewOf swarmId = view}

/-- The calls for other swarms make no difference to what a reload gives for this one. -/
def Undisturbed (calls : List SwarmCall) (swarmId : String) : Prop :=
  views codec (stateFiles codec calls) swarmId =
    views codec (stateFiles codec (calls.filter (·.swarmId = swarmId))) swarmId

end

/-- The session is in the state file or in its backup. -/
def StoredCalls.Holds (stored : StoredCalls) (session : String) : Prop :=
  ∃ call, (call ∈ stored.current ∨ call ∈ stored.backup) ∧ session ∈ call.sessions

/-- Some session is stored for both swarms. -/
def SharesSession (calls : List SwarmCall) (a b : String) : Prop :=
  ∃ session, (storedCalls (callsOf a calls)).Holds session ∧
    (storedCalls (callsOf b calls)).Holds session

variable {codec : TextCodec PersistedSwarmState} {a b swarmId session : String}
  {calls : List SwarmCall} {call : SwarmStateCall} {path : FileName} {fs fs' : Directory}
  {entries before : List FileName}

/-! ### The files of one swarm -/

/-- A call leaves the files under other names alone. -/
lemma SwarmStateCall.apply_of_stem_ne (h : path.stem ≠ sanitizedSwarmId swarmId) :
    call.apply codec swarmId fs path = fs path := by
  have hne (extension : String) : path ≠ (statePath swarmId).withExtension extension := by
    rintro rfl
    exact h rfl
  have hstate : path ≠ statePath swarmId := by
    rintro rfl
    exact h rfl
  cases call with
  | remove => simp [SwarmStateCall.apply, removeSwarmState, Directory.remove, hstate]
  | persist plan coordinatorSessionId members nowMs pid nonce =>
    simp only [SwarmStateCall.apply, persistSwarmState]
    split_ifs
    · simp [Directory.remove, hstate]
    · have hjson : "json" ≠ tmpExtension pid nonce := (tmpExtension_ne (by decide)).symm
      have hbak : "bak" ≠ tmpExtension pid nonce := (tmpExtension_ne (by decide)).symm
      rw [writeBytesInner_apply hjson hbak (show "json" ≠ "bak" by decide), if_neg (hne _),
        if_neg hstate, if_neg (hne _)]

/-- What it makes of the files under its name depends on them only. -/
lemma SwarmStateCall.apply_congr
    (h : ∀ path : FileName, path.stem = sanitizedSwarmId swarmId → fs path = fs' path)
    (hpath : path.stem = sanitizedSwarmId swarmId) :
    call.apply codec swarmId fs path = call.apply codec swarmId fs' path := by
  have hremove : fs.remove (statePath swarmId) path = fs'.remove (statePath swarmId) path := by
    simp [Directory.remove, Function.update_apply, h path hpath]
  cases call with
  | remove => exact hremove
  | persist plan coordinatorSessionId members nowMs pid nonce =>
    simp only [SwarmStateCall.apply, persistSwarmState]
    split_ifs
    · exact hremove
    · have hjson : "json" ≠ tmpExtension pid nonce := (tmpExtension_ne (by decide)).symm
      have hbak : "bak" ≠ tmpExtension pid nonce := (tmpExtension_ne (by decide)).symm
      rw [writeBytesInner_apply hjson hbak (show "json" ≠ "bak" by decide),
        writeBytesInner_apply hjson hbak (show "json" ≠ "bak" by decide), h path hpath,
        h (statePath swarmId) rfl, h ((statePath swarmId).withExtension "bak") rfl]

lemma stateFiles_concat (c : SwarmCall) :
    stateFiles codec (calls ++ [c]) = c.call.apply codec c.swarmId (stateFiles codec calls) := by
  simp [stateFiles]

/-- Where no other id has the name of a swarm, its files are those of its own calls. -/
lemma stateFiles_of_stem
    (h : ∀ c ∈ calls, sanitizedSwarmId c.swarmId = sanitizedSwarmId swarmId → c.swarmId = swarmId)
    (hpath : path.stem = sanitizedSwarmId swarmId) :
    stateFiles codec calls path = stateDirectory codec swarmId (callsOf swarmId calls) path := by
  induction calls using List.reverseRecOn generalizing path with
  | nil => rfl
  | append_singleton calls c ih =>
    have ih {path : FileName} (hpath : path.stem = sanitizedSwarmId swarmId) :=
      ih (fun c' hc' => h c' (List.mem_append_left _ hc')) hpath
    rw [stateFiles_concat]
    by_cases hc : c.swarmId = swarmId
    · have hcalls : callsOf swarmId (calls ++ [c]) = callsOf swarmId calls ++ [c.call] := by
        simp [callsOf, hc]
      rw [hcalls, stateDirectory, List.foldl_append, hc]
      exact SwarmStateCall.apply_congr (fun _ => ih) hpath
    · have hcalls : callsOf swarmId (calls ++ [c]) = callsOf swarmId calls := by
        simp [callsOf, hc]
      rw [hcalls, SwarmStateCall.apply_of_stem_ne, ih hpath]
      intro hstem
      exact hc (h c (by simp) (hstem.symm.trans hpath))

lemma stateFiles_eq_none (h : ∀ c ∈ calls, path.stem ≠ sanitizedSwarmId c.swarmId) :
    stateFiles codec calls path = none := by
  induction calls using List.reverseRecOn with
  | nil => rfl
  | append_singleton calls c ih =>
    rw [stateFiles_concat, SwarmStateCall.apply_of_stem_ne (h c (by simp))]
    exact ih fun c' hc' => h c' (List.mem_append_left _ hc')

lemma stateFiles_filter :
    stateFiles codec (calls.filter (·.swarmId = swarmId)) =
      stateDirectory codec swarmId (callsOf swarmId calls) := by
  rw [stateDirectory, callsOf, List.foldl_map, stateFiles]
  refine List.foldl_ext _ _ _ fun fs c hc => ?_
  rw [of_decide_eq_true (List.mem_filter.mp hc).2]

/-! ### Reading the files of one swarm -/

/-- The path holds the state that a call for the swarm has written. -/
structure FileOf (codec : TextCodec PersistedSwarmState) (fs : Directory) (swarmId : String)
    (path : FileName) (call : SwarmStateCall) : Prop where
  writes : call.writes
  owned : call.Owned swarmId
  file : fs path = some (call.bytes codec swarmId)

/-- What is stored was called for. -/
lemma mem_of_storedCalls {calls : List SwarmStateCall}
    (h : call ∈ (storedCalls calls).current ∨ call ∈ (storedCalls calls).backup) :
    call ∈ calls := by
  induction calls using List.reverseRecOn with
  | nil => simp [storedCalls] at h
  | append_singleton calls last ih =>
    have hlast : storedCalls (calls ++ [last]) = (storedCalls calls).after last := by
      simp [storedCalls]
    rw [hlast, StoredCalls.after] at h
    rw [List.mem_append, List.mem_singleton]
    split_ifs at h
    · rcases h with h | h
      · exact .inr (Option.some.inj h).symm
      · exact .inl (ih ((Option.or_eq_some_iff.mp h).imp id (·.2)))
    · exact .inl (ih (.inr (h.resolve_left (by simp))))

lemma owned_of_mem_callsOf (h : call ∈ callsOf swarmId calls) : call.Owned swarmId := by
  obtain ⟨c, hc, rfl⟩ := List.mem_map.mp h
  exact of_decide_eq_true (List.mem_filter.mp hc).2 ▸ c.owned

/-- Every file of the swarm's own directory is one of a stored call, and the other way round. -/
lemma exists_fileOf
    (hpath : (stateDirectory codec swarmId (callsOf swarmId calls) path).isSome) :
    path.stem = sanitizedSwarmId swarmId ∧ ∃ call,
      FileOf codec (stateDirectory codec swarmId (callsOf swarmId calls)) swarmId path call ∧
      (call ∈ (storedCalls (callsOf swarmId calls)).current ∨
        call ∈ (storedCalls (callsOf swarmId calls)).backup) := by
  obtain ⟨hcurrent, hbackup⟩ := storedCalls_writes (callsOf swarmId calls)
  rw [stateDirectory_eq] at hpath ⊢
  by_cases hstate : path = statePath swarmId
  · obtain ⟨call, hcall⟩ : ∃ call, (storedCalls (callsOf swarmId calls)).current = some call := by
      simpa [StoredCalls.files, hstate, Option.isSome_iff_exists] using hpath
    subst hstate
    exact ⟨rfl, call, ⟨hcurrent call hcall, owned_of_mem_callsOf (mem_of_storedCalls (.inl hcall)),
      files_statePath hcall⟩, .inl hcall⟩
  · by_cases hbak : path = (statePath swarmId).withExtension "bak"
    · obtain ⟨call, hcall⟩ : ∃ call, (storedCalls (callsOf swarmId calls)).backup = some call := by
        simpa [StoredCalls.files, hstate, hbak, statePath_ne_bak.symm,
          Option.isSome_iff_exists] using hpath
      subst hbak
      exact ⟨rfl, call, ⟨hbackup call hcall, owned_of_mem_callsOf (mem_of_storedCalls (.inr hcall)),
        files_bak hcall⟩, .inr hcall⟩
    · simp [StoredCalls.files, hstate, hbak] at hpath

lemma fileOf_stored (h : call ∈ (storedCalls (callsOf swarmId calls)).current ∨
    call ∈ (storedCalls (callsOf swarmId calls)).backup) : ∃ path,
      FileOf codec (stateDirectory codec swarmId (callsOf swarmId calls)) swarmId path call := by
  obtain ⟨hcurrent, hbackup⟩ := storedCalls_writes (callsOf swarmId calls)
  have howned := owned_of_mem_callsOf (mem_of_storedCalls h)
  rw [stateDirectory_eq]
  rcases h with h | h
  · exact ⟨_, hcurrent call h, howned, files_statePath h⟩
  · exact ⟨_, hbackup call h, howned, files_bak h⟩

/-! ### What one file adds -/

section

variable {loaded upper : LoadedSwarmRuntimeState} {member : SwarmMember}

lemma LoadedSwarmRuntimeState.plans_overlay :
    (upper.overlay loaded).plans swarmId = (upper.plans swarmId).or (loaded.plans swarmId) := rfl

lemma LoadedSwarmRuntimeState.coordinators_overlay : (upper.overlay loaded).coordinators swarmId =
    (upper.coordinators swarmId).or (loaded.coordinators swarmId) := rfl

lemma LoadedSwarmRuntimeState.members_overlay :
    (upper.overlay loaded).members session =
      (upper.members session).or (loaded.members session) := rfl

lemma LoadedSwarmRuntimeState.swarmsById_overlay : (upper.overlay loaded).swarmsById swarmId =
    upper.swarmsById swarmId ∪ loaded.swarmsById swarmId := rfl

lemma SwarmStateCall.Owned.recovered_members (h : call.Owned swarmId)
    (hmember : (call.recovered swarmId).members session = some member) :
    session ∈ call.sessions ∧ member.swarmId = some swarmId := by
  cases call with
  | remove => cases hmember
  | persist plan coordinatorSessionId members nowMs pid nonce =>
    obtain ⟨old, hold, rfl⟩ := Option.map_eq_some_iff.mp hmember
    have hmem := List.mem_of_getLast? hold
    rw [List.mem_filter, decide_eq_true_eq] at hmem
    exact ⟨List.mem_map.mpr ⟨old, hmem.1, hmem.2.1⟩, h old hmem.1⟩

lemma SwarmStateCall.Owned.exists_recovered (h : call.Owned swarmId)
    (hsession : session ∈ call.sessions) :
    ∃ member, (call.recovered swarmId).members session = some member := by
  cases call with
  | remove => cases hsession
  | persist plan coordinatorSessionId members nowMs pid nonce =>
    obtain ⟨old, hold, rfl⟩ := List.mem_map.mp hsession
    have hmem : old ∈ members.filter fun member =>
        member.sessionId = old.sessionId ∧ member.swarmId.isSome := by
      rw [List.mem_filter, decide_eq_true_eq, h old hold]
      exact ⟨hold, rfl, rfl⟩
    rw [← Option.isSome_iff_exists, SwarmStateCall.recovered, Option.isSome_map,
      List.getLast?_isSome]
    exact List.ne_nil_of_mem hmem

/-- The file of another swarm says nothing about the plan, the coordinator and the members. -/
lemma SwarmStateCall.Owned.recovered_other (h : call.Owned a) (hab : a ≠ b) :
    (call.recovered a).plans b = none ∧ (call.recovered a).coordinators b = none ∧
      (call.recovered a).swarmsById b = ∅ := by
  cases call with
  | remove => exact ⟨rfl, rfl, rfl⟩
  | persist plan coordinatorSessionId members nowMs pid nonce =>
    refine ⟨if_neg hab.symm, if_neg hab.symm, ?_⟩
    simp only [SwarmStateCall.recovered, List.toFinset_eq_empty_iff, List.map_eq_nil_iff,
      List.filter_eq_nil_iff, decide_eq_true_eq]
    intro member hmember hb
    exact hab (Option.some.inj ((h member hmember).symm.trans hb))

/-- The entry of a session was read from a file of the swarm. -/
def OwnedBy (loaded : LoadedSwarmRuntimeState) (swarmId session : String) : Prop :=
  ∃ member, loaded.members session = some member ∧ member.swarmId = some swarmId

lemma OwnedBy.overlay (hl : OwnedBy loaded swarmId session) (h : call.Owned swarmId) :
    OwnedBy ((call.recovered swarmId).overlay loaded) swarmId session := by
  cases hmember : (call.recovered swarmId).members session with
  | none =>
    obtain ⟨member, hmem, howner⟩ := hl
    exact ⟨member, by rw [members_overlay, hmember, Option.none_or, hmem], howner⟩
  | some member =>
    exact ⟨member, by rw [members_overlay, hmember, Option.some_or],
      (h.recovered_members hmember).2⟩

lemma ownedBy_overlay_of_mem (h : call.Owned swarmId) (hsession : session ∈ call.sessions) :
    OwnedBy ((call.recovered swarmId).overlay loaded) swarmId session := by
  obtain ⟨member, hmember⟩ := h.exists_recovered hsession
  exact ⟨member, by rw [members_overlay, hmember, Option.some_or],
    (h.recovered_members hmember).2⟩

end

/-! ### The loop over the directory -/

/-- Every file of the directory was written by a call. -/
def Readable (codec : TextCodec PersistedSwarmState) (fs : Directory) : Prop :=
  ∀ path, (fs path).isSome → ∃ swarmId call, FileOf codec fs swarmId path call

/-- The loop reads without changing a file. -/
lemma loadEntry_snd (hcodec : codec.LosslessOn PersistedSwarmState.Canonical)
    (hread : Readable codec fs) (loaded : LoadedSwarmRuntimeState) :
    (loadEntry codec (loaded, fs) path).2 = fs := by
  cases hfile : fs path with
  | none => simp [loadEntry, readJson, hfile]
  | some bytes =>
    obtain ⟨swarmId, call, hcall⟩ := hread path (by rw [hfile]; rfl)
    rw [loadEntry_eq hcodec hcall.writes hcall.file]

lemma foldl_loadEntry_snd (hcodec : codec.LosslessOn PersistedSwarmState.Canonical)
    (hread : Readable codec fs) : (entries.foldl (loadEntry codec) (.empty, fs)).2 = fs := by
  induction entries using List.reverseRecOn with
  | nil => rfl
  | append_singleton entries path ih =>
    rw [List.foldl_append, List.foldl_cons, List.foldl_nil, ← Prod.mk.eta (p := entries.foldl _ _),
      ih, loadEntry_snd hcodec hread]

lemma loadRuntimeState_concat (hcodec : codec.LosslessOn PersistedSwarmState.Canonical)
    (hread : Readable codec fs) (hcall : FileOf codec fs swarmId path call) :
    loadRuntimeState codec fs (entries ++ [path]) =
      (call.recovered swarmId).overlay (loadRuntimeState codec fs entries) := by
  rw [loadRuntimeState, List.foldl_append, List.foldl_cons, List.foldl_nil,
    ← Prod.mk.eta (p := entries.foldl _ _), foldl_loadEntry_snd hcodec hread,
    loadEntry_eq hcodec hcall.writes hcall.file]
  rfl

/-- Once a file of the swarm with the session is read, its entry stays the swarm's as long as
only files of the swarm follow. -/
lemma ownedBy_loadRuntimeState (hcodec : codec.LosslessOn PersistedSwarmState.Canonical)
    (hread : Readable codec fs) (hall : ∀ path ∈ entries, ∃ call, FileOf codec fs swarmId path call)
    (hheld : ∃ path ∈ entries, ∃ call, FileOf codec fs swarmId path call ∧
      session ∈ call.sessions) :
    OwnedBy (loadRuntimeState codec fs (before ++ entries)) swarmId session := by
  induction entries using List.reverseRecOn with
  | nil =>
    obtain ⟨path, hpath, -⟩ := hheld
    cases hpath
  | append_singleton entries last ih =>
    rw [← List.append_assoc]
    obtain ⟨path, hpath, call, hcall, hsession⟩ := hheld
    rcases List.mem_append.mp hpath with hpath | hpath
    · obtain ⟨lastCall, hlast⟩ := hall last (by simp)
      rw [loadRuntimeState_concat hcodec hread hlast]
      exact (ih (fun path hpath => hall path (List.mem_append_left _ hpath))
        ⟨path, hpath, call, hcall, hsession⟩).overlay hlast.owned
    · rw [List.mem_singleton.mp hpath] at hcall
      rw [loadRuntimeState_concat hcodec hread hcall]
      exact ownedBy_overlay_of_mem hcall.owned hsession

/-! ### Two swarms with different names -/

/-- Two loaded states agree about a swarm; `held` are the sessions stored for the other one. -/
structure AgreeOn (held : String → Prop) (swarmId : String)
    (left right : LoadedSwarmRuntimeState) : Prop where
  plans : left.plans swarmId = right.plans swarmId
  coordinators : left.coordinators swarmId = right.coordinators swarmId
  swarmsById : left.swarmsById swarmId = right.swarmsById swarmId
  members : ∀ session, ¬ held session → left.members session = right.members session
  held : ∀ session, held session → right.members session = none ∧
    ∀ member, left.members session = some member → member.swarmId ≠ some swarmId

section

variable {held : String → Prop} {left right : LoadedSwarmRuntimeState}

lemma AgreeOn.viewOf_eq (h : AgreeOn held swarmId left right) :
    left.viewOf swarmId = right.viewOf swarmId := by
  rw [viewOf, viewOf, h.plans, h.coordinators, h.swarmsById]
  congr 1
  funext session
  by_cases hsession : held session
  · obtain ⟨hright, hleft⟩ := h.held session hsession
    rw [hright, Option.filter_none, Option.filter_eq_none_iff]
    intro member hmember
    simpa using hleft member hmember
  · rw [h.members session hsession]

/-- A file of the other swarm. -/
lemma AgreeOn.overlay_left (h : AgreeOn held b left right) (hcall : call.Owned a) (hab : a ≠ b)
    (hheld : ∀ session ∈ call.sessions, held session) :
    AgreeOn held b ((call.recovered a).overlay left) right := by
  obtain ⟨hplan, hcoordinator, hswarm⟩ := hcall.recovered_other hab
  refine ⟨?_, ?_, ?_, fun session hnot => ?_, fun session hsession => ?_⟩
  · rw [plans_overlay, hplan, Option.none_or, h.plans]
  · rw [coordinators_overlay, hcoordinator, Option.none_or, h.coordinators]
  · rw [swarmsById_overlay, hswarm, Finset.empty_union, h.swarmsById]
  · rw [← h.members session hnot, members_overlay]
    cases hmember : (call.recovered a).members session with
    | none => rfl
    | some member => exact absurd (hheld _ (hcall.recovered_members hmember).1) hnot
  · refine ⟨(h.held session hsession).1, fun member hmember => ?_⟩
    rw [members_overlay, Option.or_eq_some_iff] at hmember
    rcases hmember with hmember | ⟨-, hmember⟩
    · rw [(hcall.recovered_members hmember).2]
      exact fun heq => hab (Option.some.inj heq)
    · exact (h.held session hsession).2 member hmember

/-- A file of the swarm itself. -/
lemma AgreeOn.overlay_both (h : AgreeOn held b left right) (hcall : call.Owned b)
    (hheld : ∀ session ∈ call.sessions, ¬ held session) :
    AgreeOn held b ((call.recovered b).overlay left) ((call.recovered b).overlay right) := by
  refine ⟨?_, ?_, ?_, fun session hnot => ?_, fun session hsession => ?_⟩
  · rw [plans_overlay, plans_overlay, h.plans]
  · rw [coordinators_overlay, coordinators_overlay, h.coordinators]
  · rw [swarmsById_overlay, swarmsById_overlay, h.swarmsById]
  · rw [members_overlay, members_overlay, h.members session hnot]
  · have hnone : (call.recovered b).members session = none := by
      rw [Option.eq_none_iff_forall_ne_some]
      intro member hmember
      exact hheld session (hcall.recovered_members hmember).1 hsession
    rw [members_overlay, members_overlay, hnone, Option.none_or, Option.none_or]
    exact h.held session hsession

end

section

variable (hnames : sanitizedSwarmId a ≠ sanitizedSwarmId b)
  (hcalls : ∀ c ∈ calls, c.swarmId = a ∨ c.swarmId = b)

include hnames hcalls

lemma eq_of_sanitized_left (c : SwarmCall) (hc : c ∈ calls)
    (h : sanitizedSwarmId c.swarmId = sanitizedSwarmId a) : c.swarmId = a :=
  (hcalls c hc).resolve_right fun hb => hnames (h.symm.trans (congrArg sanitizedSwarmId hb))

lemma eq_of_sanitized_right (c : SwarmCall) (hc : c ∈ calls)
    (h : sanitizedSwarmId c.swarmId = sanitizedSwarmId b) : c.swarmId = b :=
  (hcalls c hc).resolve_left fun ha => hnames ((congrArg sanitizedSwarmId ha).symm.trans h)

/-- A file of the directory is one of the two swarms'. -/
lemma stateFiles_cases (hpath : (stateFiles codec calls path).isSome) :
    (path.stem = sanitizedSwarmId a ∧ ∃ call, FileOf codec (stateFiles codec calls) a path call ∧
      ∀ session ∈ call.sessions, (storedCalls (callsOf a calls)).Holds session) ∨
    (path.stem = sanitizedSwarmId b ∧ ∃ call, FileOf codec (stateFiles codec calls) b path call ∧
      FileOf codec (stateDirectory codec b (callsOf b calls)) b path call ∧
      ∀ session ∈ call.sessions, (storedCalls (callsOf b calls)).Holds session) := by
  by_cases ha : path.stem = sanitizedSwarmId a
  · have hfiles := @stateFiles_of_stem codec _ _ _ (eq_of_sanitized_left hnames hcalls) ha
    rw [hfiles] at hpath
    obtain ⟨-, call, hcall, hstored⟩ := exists_fileOf hpath
    exact .inl ⟨ha, call, ⟨hcall.writes, hcall.owned, hfiles.trans hcall.file⟩,
      fun session hsession => ⟨call, hstored, hsession⟩⟩
  · by_cases hb : path.stem = sanitizedSwarmId b
    · have hfiles := @stateFiles_of_stem codec _ _ _ (eq_of_sanitized_right hnames hcalls) hb
      rw [hfiles] at hpath
      obtain ⟨-, call, hcall, hstored⟩ := exists_fileOf hpath
      exact .inr ⟨hb, call, ⟨hcall.writes, hcall.owned, hfiles.trans hcall.file⟩, hcall,
        fun session hsession => ⟨call, hstored, hsession⟩⟩
    · rw [stateFiles_eq_none] at hpath
      · cases hpath
      · intro c hc
        rcases hcalls c hc with h | h <;> rw [h]
        · exact ha
        · exact hb

lemma readable_stateFiles : Readable codec (stateFiles codec calls) := by
  intro path hpath
  rcases stateFiles_cases hnames hcalls hpath with ⟨-, call, hcall, -⟩ | ⟨-, call, hcall, -⟩
  · exact ⟨a, call, hcall⟩
  · exact ⟨b, call, hcall⟩

omit hnames hcalls in
lemma readable_stateDirectory :
    Readable codec (stateDirectory codec b (callsOf b calls)) := by
  intro path hpath
  obtain ⟨-, call, hcall, -⟩ := exists_fileOf hpath
  exact ⟨b, call, hcall⟩

/-- Reading the files of both swarms agrees with reading those of one of them. -/
lemma agreeOn_loadRuntimeState (hcodec : codec.LosslessOn PersistedSwarmState.Canonical)
    (hshares : ¬ SharesSession calls a b)
    (hentries : ∀ path ∈ entries, (stateFiles codec calls path).isSome) :
    AgreeOn (storedCalls (callsOf a calls)).Holds b
      (loadRuntimeState codec (stateFiles codec calls) entries)
      (loadRuntimeState codec (stateDirectory codec b (callsOf b calls))
        (entries.filter (·.stem = sanitizedSwarmId b))) := by
  have hab : a ≠ b := fun h => hnames (congrArg sanitizedSwarmId h)
  have hread := @readable_stateFiles codec _ _ _ hnames hcalls
  induction entries using List.reverseRecOn with
  | nil => exact ⟨rfl, rfl, rfl, fun _ _ => rfl, fun _ _ => ⟨rfl, fun _ h => nomatch h⟩⟩
  | append_singleton entries path ih =>
    have ih := ih fun path hpath => hentries path (List.mem_append_left _ hpath)
    rw [List.filter_append]
    rcases stateFiles_cases hnames hcalls (hentries path (by simp)) with
      ⟨hstem, call, hcall, hheld⟩ | ⟨hstem, call, hcall, hown, hheld⟩
    · rw [loadRuntimeState_concat hcodec hread hcall,
        List.filter_cons_of_neg (by simpa [hstem] using hnames), List.filter_nil, List.append_nil]
      exact ih.overlay_left hcall.owned hab hheld
    · rw [loadRuntimeState_concat hcodec hread hcall, List.filter_cons_of_pos (by simp [hstem]),
        List.filter_nil, loadRuntimeState_concat hcodec readable_stateDirectory hown]
      exact ih.overlay_both hcall.owned fun session hsession hother =>
        hshares ⟨session, hother, hheld session hsession⟩

lemma enumerates_filter (h : Enumerates (stateFiles codec calls) entries) :
    Enumerates (stateDirectory codec b (callsOf b calls))
      (entries.filter (·.stem = sanitizedSwarmId b)) := by
  refine ⟨h.1.filter _, fun path => ?_⟩
  rw [List.mem_filter, decide_eq_true_eq, h.2]
  constructor
  · rintro ⟨hpath, hstem⟩
    rwa [Directory.pathExists,
      ← stateFiles_of_stem (eq_of_sanitized_right hnames hcalls) hstem]
  · intro hpath
    obtain ⟨hstem, -⟩ := exists_fileOf hpath
    rw [Directory.pathExists,
      ← stateFiles_of_stem (eq_of_sanitized_right hnames hcalls) hstem] at hpath
    exact ⟨hpath, hstem⟩

lemma enumerates_append (hb : Enumerates (stateDirectory codec b (callsOf b calls)) before)
    (ha : Enumerates (stateDirectory codec a (callsOf a calls)) entries) :
    Enumerates (stateFiles codec calls) (before ++ entries) := by
  have hstemA {path : FileName} (hpath : path ∈ entries) : path.stem = sanitizedSwarmId a :=
    (exists_fileOf ((ha.2 path).mp hpath)).1
  have hstemB {path : FileName} (hpath : path ∈ before) : path.stem = sanitizedSwarmId b :=
    (exists_fileOf ((hb.2 path).mp hpath)).1
  refine ⟨hb.1.append ha.1 fun path hpb hpa => ?_, fun path => ?_⟩
  · exact hnames ((hstemA hpa).symm.trans (hstemB hpb))
  · rw [List.mem_append]
    constructor
    · rintro (hpath | hpath)
      · have hfile := (hb.2 path).mp hpath
        rwa [Directory.pathExists, ← stateFiles_of_stem (eq_of_sanitized_right hnames hcalls)
          (hstemB hpath)] at hfile
      · have hfile := (ha.2 path).mp hpath
        rwa [Directory.pathExists, ← stateFiles_of_stem (eq_of_sanitized_left hnames hcalls)
          (hstemA hpath)] at hfile
    · intro hpath
      rcases stateFiles_cases hnames hcalls hpath with ⟨hstem, -⟩ | ⟨hstem, -⟩
      · rw [Directory.pathExists, stateFiles_of_stem (eq_of_sanitized_left hnames hcalls) hstem]
          at hpath
        exact .inr ((ha.2 path).mpr hpath)
      · rw [Directory.pathExists, stateFiles_of_stem (eq_of_sanitized_right hnames hcalls) hstem]
          at hpath
        exact .inl ((hb.2 path).mpr hpath)

omit hnames hcalls in
lemma exists_enumerates (codec : TextCodec PersistedSwarmState) (swarmId : String)
    (calls : List SwarmStateCall) :
    ∃ entries, Enumerates (stateDirectory codec swarmId calls) entries :=
  ⟨_, @stateDirectory_eq codec _ calls ▸ enumerates_entries codec swarmId _⟩

omit hnames hcalls in
/-- A session that is stored for a swarm is read from one of its files. -/
lemma ownedBy_of_holds (hcodec : codec.LosslessOn PersistedSwarmState.Canonical)
    (hread : Readable codec fs)
    (hfiles : ∀ path, (stateDirectory codec swarmId (callsOf swarmId calls) path).isSome →
      fs path = stateDirectory codec swarmId (callsOf swarmId calls) path)
    (henum : Enumerates (stateDirectory codec swarmId (callsOf swarmId calls)) entries)
    (hholds : (storedCalls (callsOf swarmId calls)).Holds session) :
    OwnedBy (loadRuntimeState codec fs (before ++ entries)) swarmId session := by
  have hfile {path : FileName} {call : SwarmStateCall}
      (hcall : FileOf codec (stateDirectory codec swarmId (callsOf swarmId calls)) swarmId
        path call) :
      FileOf codec fs swarmId path call :=
    ⟨hcall.writes, hcall.owned, (hfiles path (by rw [hcall.file]; rfl)).trans hcall.file⟩
  refine ownedBy_loadRuntimeState hcodec hread (fun path hpath => ?_) ?_
  · obtain ⟨-, call, hcall, -⟩ := exists_fileOf ((henum.2 path).mp hpath)
    exact ⟨call, hfile hcall⟩
  · obtain ⟨call, hstored, hsession⟩ := hholds
    obtain ⟨path, hcall⟩ := @fileOf_stored codec _ _ _ hstored
    refine ⟨path, (henum.2 path).mpr ?_, call, hfile hcall, hsession⟩
    rw [Directory.pathExists, hcall.file]
    rfl

lemma undisturbed_of_not_shares (hcodec : codec.LosslessOn PersistedSwarmState.Canonical)
    (hshares : ¬ SharesSession calls a b) : Undisturbed codec calls b := by
  rw [Undisturbed, stateFiles_filter]
  ext view
  constructor
  · rintro ⟨entries, henum, rfl⟩
    exact ⟨_, enumerates_filter hnames hcalls henum,
      (agreeOn_loadRuntimeState hnames hcalls hcodec hshares
        fun path hpath => (henum.2 path).mp hpath).viewOf_eq.symm⟩
  · rintro ⟨before, henum, rfl⟩
    obtain ⟨entries, hentries⟩ := exists_enumerates codec a (callsOf a calls)
    have hall := enumerates_append hnames hcalls henum hentries
    have hfilter : (before ++ entries).filter (·.stem = sanitizedSwarmId b) = before := by
      rw [List.filter_append, List.filter_eq_self.mpr, List.filter_eq_nil_iff.mpr, List.append_nil]
      · intro path hpath
        rw [(exists_fileOf ((hentries.2 path).mp hpath)).1, decide_eq_true_eq]
        exact hnames
      · intro path hpath
        rw [(exists_fileOf ((henum.2 path).mp hpath)).1, decide_eq_true_eq]
    have hagree := agreeOn_loadRuntimeState hnames hcalls hcodec hshares
      fun path hpath => (hall.2 path).mp hpath
    rw [hfilter] at hagree
    exact ⟨_, hall, hagree.viewOf_eq⟩

/-- With the files of the other swarm read last, the shared session is taken away. -/
lemma not_shares_of_undisturbed (hcodec : codec.LosslessOn PersistedSwarmState.Canonical)
    (h : Undisturbed codec calls b) : ¬ SharesSession calls a b := by
  rintro ⟨session, ha, hb⟩
  obtain ⟨before, hbefore⟩ := exists_enumerates codec b (callsOf b calls)
  obtain ⟨entries, hentries⟩ := exists_enumerates codec a (callsOf a calls)
  have hall := enumerates_append hnames hcalls hbefore hentries
  obtain ⟨entries', henum', hview⟩ := h.subset ⟨_, hall, rfl⟩
  rw [stateFiles_filter] at henum' hview
  obtain ⟨other, hother, howner⟩ := @ownedBy_of_holds _ _ _ _ _ _ before hcodec
    (readable_stateFiles hnames hcalls) (fun path hpath =>
      stateFiles_of_stem (eq_of_sanitized_left hnames hcalls) (exists_fileOf hpath).1) hentries ha
  obtain ⟨member, hmember, hown⟩ := @ownedBy_of_holds _ _ _ _ _ _ [] hcodec
    readable_stateDirectory (fun _ _ => rfl) henum' hb
  have hsession := congrArg (LoadedSwarm.members · session) hview
  simp only [viewOf, hother, List.nil_append] at hsession hmember
  rw [hmember, Option.filter_some, Option.filter_some, if_pos (by simp [hown]),
    if_neg] at hsession
  · cases hsession
  · rw [howner, decide_eq_true_eq]
    exact fun heq => hnames (congrArg sanitizedSwarmId (Option.some.inj heq))

end

/-! ### Two swarms with one name -/

/-- The state of one swarm is written, and then that of the other one is removed. -/
def crossedCalls (a b : String) : List SwarmCall :=
  [⟨b, .persist none (some "fox") [] 1 7 0, fun _ h => nomatch h⟩,
    ⟨a, .remove, fun _ h => nomatch h⟩]

lemma not_shares_crossedCalls (hab : a ≠ b) : ¬ SharesSession (crossedCalls a b) a b := by
  rintro ⟨session, ⟨call, hstored, hsession⟩, -⟩
  simp [crossedCalls, callsOf, hab.symm, storedCalls, StoredCalls.after,
    SwarmStateCall.writes] at hstored

/-- The removal of the other swarm takes the file away. -/
lemma not_undisturbed_crossedCalls (hcodec : codec.LosslessOn PersistedSwarmState.Canonical)
    (hab : a ≠ b) (hnames : sanitizedSwarmId a = sanitizedSwarmId b) :
    ¬ Undisturbed codec (crossedCalls a b) b := by
  intro h
  have hremoved : stateFiles codec (crossedCalls a b) =
      stateDirectory codec b [.persist none (some "fox") [] 1 7 0, .remove] := by
    simp [stateFiles, crossedCalls, stateDirectory, SwarmStateCall.apply, removeSwarmState,
      statePath, hnames]
  have hempty : Enumerates (stateFiles codec (crossedCalls a b)) [] := by
    rw [hremoved, stateDirectory_eq]
    exact enumerates_entries codec b _
  have hcalls : callsOf b (crossedCalls a b) = [.persist none (some "fox") [] 1 7 0] := by
    simp [callsOf, crossedCalls, hab]
  obtain ⟨entries, henum, hview⟩ := h.subset ⟨[], hempty, rfl⟩
  rw [stateFiles_filter, hcalls] at henum hview
  have hstored : storedCalls [.persist none (some "fox") [] 1 7 0] =
      ⟨some (.persist none (some "fox") [] 1 7 0), none⟩ := rfl
  have honly : entries = StoredCalls.entries
      ⟨some (.persist none (some "fox") [] 1 7 0), none⟩ b := by
    rw [stateDirectory_eq, hstored] at henum
    have hall := enumerates_entries codec b ⟨some (.persist none (some "fox") [] 1 7 0), none⟩
    exact List.perm_singleton.mp ((List.perm_ext_iff_of_nodup henum.1 hall.1).mpr fun path =>
      (henum.2 path).trans (hall.2 path).symm)
  rw [stateDirectory_eq, hstored, honly, loadRuntimeState_entries b hcodec (by rintro _ ⟨⟩; rfl)
    (by rintro _ ⟨⟩)] at hview
  have hcoordinator := congrArg LoadedSwarm.coordinator hview
  simp [viewOf, recoveredState, SwarmStateCall.recovered, loadRuntimeState,
    LoadedSwarmRuntimeState.empty, coordinators_overlay] at hcoordinator

/-- For every two swarms: whatever calls are made for them, a reload gives the same for the second
with and without the calls for the first as long as no session is stored for both, and only then,
if and only if the two ids differ after the substitution. -/
theorem swarms_undisturbed_iff (hcodec : codec.LosslessOn PersistedSwarmState.Canonical)
    (hab : a ≠ b) :
    (∀ calls : List SwarmCall, (∀ c ∈ calls, c.swarmId = a ∨ c.swarmId = b) →
      (Undisturbed codec calls b ↔ ¬ SharesSession calls a b)) ↔
      sanitizedSwarmId a ≠ sanitizedSwarmId b := by
  constructor
  · intro h hnames
    refine not_undisturbed_crossedCalls hcodec hab hnames ((h (crossedCalls a b) ?_).mpr
      (not_shares_crossedCalls hab))
    simp [crossedCalls]
  · intro hnames calls hcalls
    exact ⟨not_shares_of_undisturbed hnames hcalls hcodec,
      undisturbed_of_not_shares hnames hcalls hcodec⟩

theorem swarms_undisturbed_iff_paths :
    (∀ calls : List SwarmCall, (∀ c ∈ calls, c.swarmId = "/dev/x" ∨ c.swarmId = "/dev/y") →
      (Undisturbed (.unary _) calls "/dev/y" ↔ ¬ SharesSession calls "/dev/x" "/dev/y")) ↔
      sanitizedSwarmId "/dev/x" ≠ sanitizedSwarmId "/dev/y" :=
  swarms_undisturbed_iff (TextCodec.unary_losslessOn _) (by decide)

/-- The swarms of `/dev/x` and `/dev_x` share a file. -/
theorem removeSwarmState_disturbs :
    ¬ ∀ (codec : TextCodec PersistedSwarmState) (a b : String) (calls : List SwarmCall),
      codec.LosslessOn PersistedSwarmState.Canonical → a ≠ b →
      (∀ c ∈ calls, c.swarmId = a ∨ c.swarmId = b) → Undisturbed codec calls b := by
  intro h
  refine not_undisturbed_crossedCalls (TextCodec.unary_losslessOn _) (by decide)
    (by decide : sanitizedSwarmId "/dev/x" = sanitizedSwarmId "/dev_x")
    (h (.unary _) "/dev/x" "/dev_x" _ (TextCodec.unary_losslessOn _) (by decide) ?_)
  simp [crossedCalls]

end Jcode
