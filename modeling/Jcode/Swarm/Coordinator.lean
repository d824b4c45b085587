import Jcode.Foundation.Run
import Jcode.Swarm.Member
import Jcode.Swarm.Plan
import Mathlib.Data.Finset.Sort

/-!
# Coordinators

The coordinator of a swarm is recorded twice: by session id in `swarm_coordinators`, and as the
role of the member. Roles are assigned in `handle_comm_assign_role` and a coordinator that leaves
is replaced in `remove_session_from_swarm`.
-/

namespace Jcode

open Schedule

/-- `swarm_members`, `swarms_by_id`, `swarm_coordinators` and `swarm_plans`. A swarm without
members has no entry in `swarms_by_id`. -/
structure SwarmTables where
  members : String → Option SwarmMember
  swarmsById : String → Finset String
  coordinators : String → Option String
  plans : String → Option VersionedPlan

namespace SwarmTables

variable (t : SwarmTables)

def swarmOf (sessionId : String) : Option String := (t.members sessionId).bind (·.swarmId)

def roleOf (sessionId : String) : Option String := (t.members sessionId).map (·.role)

/-- `members.get_mut(..)` with an assignment to a field. -/
def modifyMember (sessionId : String) (f : SwarmMember → SwarmMember) : SwarmTables :=
  { t with members := Function.update t.members sessionId ((t.members sessionId).map f) }

def setRole (sessionId role : String) : SwarmTables :=
  t.modifyMember sessionId fun member => { member with role := role }

/-- Change the participants of a swarm's plan, if it has one. -/
def modifyParticipants (swarmId : String) (f : Finset String → Finset String) : SwarmTables :=
  { t with plans := Function.update t.plans swarmId ((t.plans swarmId).map fun plan =>
      { plan with participants := f plan.participants }) }

def removePlanParticipant (swarmId sessionId : String) : SwarmTables :=
  t.modifyParticipants swarmId (·.erase sessionId)

end SwarmTables

/-- What a server knows about its connections: whose event channel is open and which sessions it
runs. -/
structure Connections where
  channelOpen : String → Bool
  inSessions : String → Bool

/-! ### `handle_comm_assign_role` -/

section

variable (t : SwarmTables) (connections : Connections)

/-- Nobody is there any more to act as the coordinator. -/
def coordinatorGone (coordId : String) : Bool :=
  match t.members coordId with
  | some member => !connections.channelOpen coordId || !connections.inSessions coordId ||
      member.isHeadless
  | none => true

/-- The swarm in which the requester may assign roles: it is the coordinator, or it promotes
itself when the coordinator is gone. -/
def roleAssigner (reqSessionId targetSession role : String) : Option String :=
  (t.swarmOf reqSessionId).filter fun swarmId =>
    t.coordinators swarmId = some reqSessionId ||
      (role = "coordinator" && targetSession = reqSessionId &&
        (t.coordinators swarmId).all (coordinatorGone t connections))

/-- The role of the target, the recorded coordinator and the role of the requester. -/
def assignedRole (swarmId reqSessionId targetSession role : String) : SwarmTables :=
  let t := t.setRole targetSession role
  if role = "coordinator" then
    { t with
      coordinators := Function.update t.coordinators swarmId (some targetSession) }.modifyMember
      reqSessionId fun member =>
        if member.sessionId ≠ targetSession then { member with role := "agent" } else member
  else t

/-- A request that is carried out, or the error it is answered with. -/
def handleCommAssignRole (reqSessionId targetSession role : String) : Except String SwarmTables :=
  match roleAssigner t connections reqSessionId targetSession role with
  | none => .error ("Only the coordinator can assign roles. (Tip: if the coordinator has " ++
      "disconnected, use assign_role with target_session set to your own session ID to " ++
      "self-promote.)")
  | some swarmId =>
    match t.members targetSession with
    | none => .error ("Unknown session '" ++ targetSession ++ "'")
    | some _ => .ok (assignedRole t swarmId reqSessionId targetSession role)

end

/-! ### `remove_session_from_swarm` -/

section

variable (t : SwarmTables) (sessionId swarmId : String)

/-- The first member by id that is not headless. -/
def newCoordinator : Option String :=
  (((t.swarmsById swarmId).filter fun id =>
    (t.members id).any fun member => !member.isHeadless).sort (· ≤ ·)).head?

/-- A new coordinator is recorded, gets the role and takes part in the plan. -/
def replaceCoordinator : SwarmTables :=
  let new := newCoordinator t swarmId
  let t := { t with coordinators := Function.update t.coordinators swarmId new }
  match new with
  | some id => (t.setRole id "coordinator").modifyParticipants swarmId (insert id)
  | none => t

/-- The session is neither a participant of the plan nor a member of the swarm any more. -/
def eraseMember : SwarmTables :=
  { t.removePlanParticipant swarmId sessionId with
    swarmsById := Function.update t.swarmsById swarmId ((t.swarmsById swarmId).erase sessionId) }

def removeSessionFromSwarm : SwarmTables :=
  let t := eraseMember t sessionId swarmId
  let t := if t.coordinators swarmId = some sessionId then replaceCoordinator t swarmId else t
  t.setRole sessionId "agent"

/-- Why a session leaves: it is removed from `swarm_members`, or its swarm feature is switched
off. -/
inductive Departure
  | removed
  | disabled
deriving DecidableEq

/-- What the callers of `remove_session_from_swarm` do first. -/
def SwarmTables.depart (t : SwarmTables) (sessionId : String) : Departure → SwarmTables
  | .removed => { t with members := Function.update t.members sessionId none }
  | .disabled => t.modifyMember sessionId fun member =>
      { member with swarmEnabled := false, swarmId := none, role := "agent" }

end

/-! ### What the operations do -/

namespace SwarmTables

variable {t t' : SwarmTables} {connections : Connections} {f : SwarmMember → SwarmMember}
  {sessionId swarmId reqSessionId targetSession role x : String}

lemma swarmOf_modifyMember (hf : ∀ member, (f member).swarmId = member.swarmId) :
    (t.modifyMember sessionId f).swarmOf x = t.swarmOf x := by
  by_cases hx : x = sessionId
  · subst hx
    cases h : t.members x <;> simp [swarmOf, modifyMember, h, hf]
  · simp [swarmOf, modifyMember, hx]

lemma roleOf_modifyMember_of_ne (h : x ≠ sessionId) :
    (t.modifyMember sessionId f).roleOf x = t.roleOf x := by
  simp [roleOf, modifyMember, h]

lemma roleOf_setRole (h : (t.members sessionId).isSome) :
    (t.setRole sessionId role).roleOf x = if x = sessionId then some role else t.roleOf x := by
  split_ifs with hx
  · subst hx
    obtain ⟨member, hmember⟩ := Option.isSome_iff_exists.mp h
    simp [roleOf, setRole, modifyMember, hmember]
  · exact roleOf_modifyMember_of_ne hx

/-- Every entry is found under its own session id, and a session is in the set of a swarm exactly
if its entry names the swarm. -/
structure Registered (t : SwarmTables) : Prop where
  named : ∀ x member, t.members x = some member → member.sessionId = x
  registered : ∀ s x, x ∈ t.swarmsById s ↔ t.swarmOf x = some s

lemma Registered.modifyMember (h : Registered t)
    (hname : ∀ member, (f member).sessionId = member.sessionId)
    (hswarm : ∀ member, (f member).swarmId = member.swarmId) :
    Registered (t.modifyMember sessionId f) where
  named x member hmember := by
    by_cases hx : x = sessionId
    · subst hx
      simp only [SwarmTables.modifyMember, Function.update_self, Option.map_eq_some_iff] at hmember
      obtain ⟨member', hmember', rfl⟩ := hmember
      rw [hname, h.named x member' hmember']
    · simp only [SwarmTables.modifyMember, Function.update_of_ne hx] at hmember
      exact h.named x member hmember
  registered s x := by
    rw [swarmOf_modifyMember hswarm]
    exact h.registered s x

lemma Registered.congr (h : Registered t) (hmembers : t'.members = t.members)
    (hswarms : t'.swarmsById = t.swarmsById) : Registered t' where
  named x member hmember := h.named x member (hmembers ▸ hmember)
  registered s x := by
    rw [hswarms, h.registered s x]
    simp only [swarmOf, hmembers]

/-- The requester's own role is given up with the promotion of another session. -/
lemma roleOf_assignedRole (hreg : Registered t) (htarget : (t.members targetSession).isSome)
    (hreq : (t.members reqSessionId).isSome) :
    (assignedRole t swarmId reqSessionId targetSession role).roleOf x =
      if role = "coordinator" ∧ x = reqSessionId ∧ x ≠ targetSession then some "agent"
      else if x = targetSession then some role else t.roleOf x := by
  have hset : (t.setRole targetSession role).roleOf x = _ := roleOf_setRole htarget
  unfold assignedRole
  by_cases hrole : role = "coordinator"
  · rw [if_pos hrole]
    by_cases hx : x = reqSessionId
    · subst hx
      obtain ⟨member, hmember⟩ := Option.isSome_iff_exists.mp hreq
      have hname := hreg.named x member hmember
      by_cases hself : x = targetSession
      · subst hself
        simp [roleOf, modifyMember, setRole, hmember, hname, hrole]
      · simp [roleOf, modifyMember, setRole, hmember, hname, hrole, hself]
    · rw [roleOf_modifyMember_of_ne hx, if_neg fun h => hx h.2.1]
      exact hset
  · rw [if_neg hrole, hset]
    simp [hrole]

lemma coordinators_assignedRole (s : String) :
    (assignedRole t swarmId reqSessionId targetSession role).coordinators s =
      if role = "coordinator" ∧ s = swarmId then some targetSession else t.coordinators s := by
  unfold assignedRole
  by_cases hrole : role = "coordinator"
  · by_cases hs : s = swarmId <;> simp [hrole, hs, modifyMember, setRole]
  · simp [hrole, modifyMember, setRole]

lemma swarmsById_assignedRole :
    (assignedRole t swarmId reqSessionId targetSession role).swarmsById = t.swarmsById := by
  unfold assignedRole
  split_ifs <;> rfl

lemma Registered.assignedRole (h : Registered t) :
    Registered (assignedRole t swarmId reqSessionId targetSession role) := by
  have hset : Registered (t.setRole targetSession role) :=
    h.modifyMember (fun _ => rfl) fun _ => rfl
  unfold Jcode.assignedRole
  dsimp only
  split_ifs
  · have hrecorded : Registered { t.setRole targetSession role with
        coordinators := Function.update (t.setRole targetSession role).coordinators swarmId
          (some targetSession) } := hset.congr rfl rfl
    refine hrecorded.modifyMember (fun member => ?_) fun member => ?_
    all_goals split_ifs <;> rfl
  · exact hset

/-- Who may have a role request carried out, and what that does. -/
lemma handleCommAssignRole_eq_ok
    (h : handleCommAssignRole t connections reqSessionId targetSession role = .ok t') :
    ∃ sid, roleAssigner t connections reqSessionId targetSession role = some sid ∧
      (t.members targetSession).isSome ∧
      t' = assignedRole t sid reqSessionId targetSession role := by
  unfold handleCommAssignRole at h
  split at h
  · cases h
  rename_i sid hassigner
  split at h
  · cases h
  rename_i member hmember
  cases h
  exact ⟨sid, hassigner, Option.isSome_of_mem hmember, rfl⟩

/-- What a request of a member of the swarm `sid` does. -/
structure AssignEffect (t t' : SwarmTables) (reqSessionId targetSession role sid : String) :
    Prop where
  swarm : t.swarmOf reqSessionId = some sid
  sets : t'.swarmsById = t.swarmsById
  recorded : ∀ s, t'.coordinators s =
    if role = "coordinator" ∧ s = sid then some targetSession else t.coordinators s
  role : ∀ x, t'.roleOf x =
    if role = "coordinator" ∧ x = reqSessionId ∧ x ≠ targetSession then some "agent"
    else if x = targetSession then some role else t.roleOf x

lemma assignEffect_of_eq_ok (hreg : Registered t)
    (h : handleCommAssignRole t connections reqSessionId targetSession role = .ok t') :
    ∃ sid, AssignEffect t t' reqSessionId targetSession role sid := by
  obtain ⟨sid, hassigner, htarget, rfl⟩ := handleCommAssignRole_eq_ok h
  have hreq : t.swarmOf reqSessionId = some sid := (Option.filter_eq_some_iff.mp hassigner).1
  obtain ⟨member, hmember, -⟩ := Option.bind_eq_some_iff.mp hreq
  exact ⟨sid, hreq, swarmsById_assignedRole, coordinators_assignedRole, fun x =>
    roleOf_assignedRole hreg htarget (Option.isSome_of_mem hmember)⟩

/-! #### Departures -/

/-- The new coordinator is one of the members of the swarm. -/
lemma mem_newCoordinator (h : newCoordinator t swarmId = some x) :
    x ∈ t.swarmsById swarmId ∧ (t.members x).isSome := by
  have hmem := List.mem_of_mem_head? (Option.mem_def.mpr h)
  rw [Finset.mem_sort, Finset.mem_filter] at hmem
  exact ⟨hmem.1, Option.isSome_of_any hmem.2⟩

lemma roleOf_replaceCoordinator :
    (replaceCoordinator t swarmId).roleOf x =
      if newCoordinator t swarmId = some x then some "coordinator" else t.roleOf x := by
  unfold replaceCoordinator
  cases hnew : newCoordinator t swarmId with
  | none => rfl
  | some id =>
    have hset : (t.setRole id "coordinator").roleOf x = _ :=
      roleOf_setRole (mem_newCoordinator hnew).2
    rw [if_congr (show some id = some x ↔ x = id by simp [eq_comm]) rfl rfl]
    exact hset

lemma coordinators_replaceCoordinator :
    (replaceCoordinator t swarmId).coordinators =
      Function.update t.coordinators swarmId (newCoordinator t swarmId) := by
  unfold replaceCoordinator
  cases hnew : newCoordinator t swarmId <;> simp [modifyParticipants, setRole, modifyMember]

lemma swarmsById_replaceCoordinator :
    (replaceCoordinator t swarmId).swarmsById = t.swarmsById := by
  unfold replaceCoordinator
  cases hnew : newCoordinator t swarmId <;> rfl

lemma Registered.replaceCoordinator (h : Registered t) :
    Registered (replaceCoordinator t swarmId) := by
  unfold Jcode.replaceCoordinator
  cases hnew : newCoordinator t swarmId with
  | none => exact h.congr rfl rfl
  | some id =>
    have hset : Registered (t.setRole id "coordinator") :=
      h.modifyMember (fun _ => rfl) fun _ => rfl
    exact hset.congr rfl rfl

lemma members_depart {departure : Departure} (h : x ≠ sessionId) :
    (t.depart sessionId departure).members x = t.members x := by
  cases departure <;> simp [depart, modifyMember, h]

lemma swarmOf_depart {departure : Departure} :
    (t.depart sessionId departure).swarmOf sessionId = none := by
  cases departure with
  | removed => simp [swarmOf, depart]
  | disabled => cases h : t.members sessionId <;> simp [swarmOf, depart, modifyMember, h]

/-- The tables agree again when the session is no longer a member. -/
lemma Registered.eraseMember (h : Registered t) (hswarm : t.swarmOf sessionId = some swarmId)
    (departure : Departure) :
    Registered (eraseMember (t.depart sessionId departure) sessionId swarmId) where
  named x member hmember := by
    by_cases hx : x = sessionId
    · subst hx
      cases departure with
      | removed =>
        simp [Jcode.eraseMember, depart, removePlanParticipant, modifyParticipants] at hmember
      | disabled =>
        simp only [Jcode.eraseMember, depart, removePlanParticipant, modifyParticipants,
          SwarmTables.modifyMember, Function.update_self, Option.map_eq_some_iff] at hmember
        obtain ⟨member', hmember', rfl⟩ := hmember
        exact h.named x member' hmember'
    · exact h.named x member ((members_depart hx).symm.trans hmember)
  registered s x := by
    have hsets : (t.depart sessionId departure).swarmsById = t.swarmsById := by
      cases departure <;> rfl
    have hmember : x ∈ (Jcode.eraseMember (t.depart sessionId departure) sessionId
        swarmId).swarmsById s ↔ x ∈ t.swarmsById s ∧ x ≠ sessionId := by
      by_cases hs : s = swarmId
      · subst hs
        simp [Jcode.eraseMember, hsets, and_comm]
      · have hne (hmem : sessionId ∈ t.swarmsById s) : False := by
          rw [h.registered, hswarm] at hmem
          exact hs (Option.some.inj hmem).symm
        simp only [Jcode.eraseMember, hsets, Function.update_of_ne hs]
        exact ⟨fun hmem => ⟨hmem, fun hx => hne (hx ▸ hmem)⟩, And.left⟩
    rw [hmember, h.registered]
    by_cases hx : x = sessionId
    · subst hx
      have hgone : (t.depart x departure).swarmOf x = none := swarmOf_depart
      exact iff_of_false (fun hmem => hmem.2 rfl) fun hsome => by cases hgone.symm.trans hsome
    · have hsame : (Jcode.eraseMember (t.depart sessionId departure) sessionId swarmId).swarmOf x =
          t.swarmOf x := congrArg (·.bind (·.swarmId)) (members_depart hx)
      simp [hsame, hx]

/-- A session leaves its swarm. -/
def leave (t : SwarmTables) (sessionId : String) (departure : Departure) : Option SwarmTables :=
  (t.swarmOf sessionId).map fun swarmId =>
    removeSessionFromSwarm (t.depart sessionId departure) sessionId swarmId

/-- What a departure from the swarm `sid` does; `new` is the coordinator that replaces the session,
when the session was the coordinator. -/
structure LeaveEffect (t t' : SwarmTables) (sessionId sid : String) (new : Option String) :
    Prop where
  swarm : t.swarmOf sessionId = some sid
  sets : t'.swarmsById = Function.update t.swarmsById sid ((t.swarmsById sid).erase sessionId)
  member : ∀ c, new = some c → c ∈ t'.swarmsById sid
  recorded : t'.coordinators =
    if t.coordinators sid = some sessionId then Function.update t.coordinators sid new
    else t.coordinators
  role : ∀ x, x ≠ sessionId → t'.roleOf x =
    if t.coordinators sid = some sessionId ∧ new = some x then some "coordinator" else t.roleOf x

/-- A session that leaves is replaced if it was the coordinator, and is registered nowhere. -/
lemma leave_eq_some {departure : Departure} (hreg : Registered t)
    (h : t.leave sessionId departure = some t') :
    Registered t' ∧ ∃ sid new, LeaveEffect t t' sessionId sid new := by
  obtain ⟨sid, hswarm, rfl⟩ := Option.map_eq_some_iff.mp h
  have hsets : (t.depart sessionId departure).swarmsById = t.swarmsById := by
    cases departure <;> rfl
  have hcoord : (t.depart sessionId departure).coordinators = t.coordinators := by
    cases departure <;> rfl
  have hrole (x : String) (hx : x ≠ sessionId) :
      (eraseMember (t.depart sessionId departure) sessionId sid).roleOf x = t.roleOf x :=
    congrArg (·.map (·.role)) (members_depart hx)
  have herased := hreg.eraseMember hswarm departure
  generalize hbase : eraseMember (t.depart sessionId departure) sessionId sid = base
    at herased hrole
  have hbsets : base.swarmsById =
      Function.update t.swarmsById sid ((t.swarmsById sid).erase sessionId) := by
    rw [← hbase, ← hsets]
    rfl
  have hbcoord : base.coordinators = t.coordinators := by
    rw [← hbase, ← hcoord]
    rfl
  unfold removeSessionFromSwarm
  rw [hbase]
  dsimp only
  rw [hbcoord]
  refine ⟨?_, sid, newCoordinator base sid, hswarm, ?_, fun c hc => ?_, ?_, fun x hx => ?_⟩
  · split_ifs
    · exact herased.replaceCoordinator.modifyMember (fun _ => rfl) fun _ => rfl
    · exact herased.modifyMember (fun _ => rfl) fun _ => rfl
  · split_ifs
    · exact swarmsById_replaceCoordinator.trans hbsets
    · exact hbsets
  · split_ifs
    · exact (Finset.ext_iff.mp (congrFun swarmsById_replaceCoordinator sid) c).mpr
        (mem_newCoordinator hc).1
    · exact (mem_newCoordinator hc).1
  · split_ifs
    · exact coordinators_replaceCoordinator.trans (by rw [hbcoord])
    · exact hbcoord
  · rw [setRole, roleOf_modifyMember_of_ne hx]
    split_ifs with h1 h2 h2
    · rw [roleOf_replaceCoordinator, if_pos h2.2]
    · rw [roleOf_replaceCoordinator, if_neg fun hnew => h2 ⟨h1, hnew⟩, hrole x hx]
    · exact absurd h2.1 h1
    · exact hrole x hx

end SwarmTables

/-! ### Runs -/

/-- Tables in which a session is a member exactly of the swarm that its entry names. -/
structure SwarmRegistry where
  tables : SwarmTables
  registered : tables.Registered

inductive RoleMove
  | assignRole (connections : Connections) (reqSessionId targetSession role : String)
  | leave (sessionId : String) (departure : Departure)

namespace SwarmRegistry

/-- A role request that is carried out, or a departure. -/
def step (r : SwarmRegistry) : RoleMove → Option SwarmRegistry
  | .assignRole connections reqSessionId targetSession role =>
    match h : handleCommAssignRole r.tables connections reqSessionId targetSession role with
    | .ok tables => some ⟨tables, by
        obtain ⟨sid, -, -, rfl⟩ := SwarmTables.handleCommAssignRole_eq_ok h
        exact r.registered.assignedRole⟩
    | .error _ => none
  | .leave sessionId departure =>
    match h : r.tables.leave sessionId departure with
    | some tables => some ⟨tables, (SwarmTables.leave_eq_some r.registered h).1⟩
    | none => none

variable {r r' : SwarmRegistry} {connections : Connections} {departure : Departure}
  {swarmId sessionId reqSessionId targetSession role : String}

lemma step_assignRole
    (h : r.step (.assignRole connections reqSessionId targetSession role) = some r') :
    handleCommAssignRole r.tables connections reqSessionId targetSession role = .ok r'.tables := by
  simp only [step] at h
  split at h
  · rename_i tables htables
    cases h
    exact htables
  · cases h

lemma step_leave (h : r.step (.leave sessionId departure) = some r') :
    r.tables.leave sessionId departure = some r'.tables := by
  simp only [step] at h
  split at h
  · rename_i tables htables
    cases h
    exact htables
  · cases h

/-! ### Agreement of the two records -/

/-- The recorded coordinator of the swarm, if there is one, is a member of it and the only member
with the role. -/
def Agrees (swarmId : String) (r : SwarmRegistry) : Prop :=
  ∀ c, r.tables.coordinators swarmId = some c → c ∈ r.tables.swarmsById swarmId ∧
    ∀ x ∈ r.tables.swarmsById swarmId, r.tables.roleOf x = some "coordinator" ↔ x = c

/-- The recorded coordinator is given no other role; inside the swarm the role of the coordinator
goes to a member, while nobody but the requester has it; from outside it goes to no member but the
coordinator. -/
def KeepsAgreement (swarmId : String) (r : SwarmRegistry) : RoleMove → Prop
  | .assignRole _ reqSessionId targetSession role =>
    if role = "coordinator" then
      if r.tables.swarmOf reqSessionId = some swarmId then
        targetSession ∈ r.tables.swarmsById swarmId ∧
          ∀ x ∈ r.tables.swarmsById swarmId, x ≠ targetSession → x ≠ reqSessionId →
            r.tables.roleOf x ≠ some "coordinator"
      else targetSession ∈ r.tables.swarmsById swarmId →
        ∀ c, r.tables.coordinators swarmId = some c → c = targetSession
    else r.tables.coordinators swarmId ≠ some targetSession
  | .leave _ _ => True

lemma Agrees.leave (h : Agrees swarmId r) (hs : r.step (.leave sessionId departure) = some r') :
    Agrees swarmId r' := by
  obtain ⟨-, sid, new, heffect⟩ := SwarmTables.leave_eq_some r.registered (step_leave hs)
  intro c hc
  rw [heffect.recorded] at hc
  by_cases hswarm : swarmId = sid
  · subst hswarm
    have hmem (x : String) : x ∈ r'.tables.swarmsById swarmId ↔
        x ∈ r.tables.swarmsById swarmId ∧ x ≠ sessionId := by
      rw [heffect.sets, Function.update_self, Finset.mem_erase, and_comm]
    by_cases hcoord : r.tables.coordinators swarmId = some sessionId
    · -- the session was the coordinator and `c` takes over
      rw [if_pos hcoord, Function.update_self] at hc
      refine ⟨heffect.member c hc, fun x hx => ?_⟩
      obtain ⟨hxold, hne⟩ := (hmem x).mp hx
      rw [heffect.role x hne, hc]
      by_cases hxc : x = c
      · simp [hcoord, hxc]
      · have hplain : r.tables.roleOf x ≠ some "coordinator" := fun hrole =>
          hne (((h sessionId hcoord).2 x hxold).mp hrole)
        simp [hcoord, hxc, Ne.symm hxc, hplain]
    · rw [if_neg hcoord] at hc
      obtain ⟨hcmem, hroles⟩ := h c hc
      have hne : c ≠ sessionId := fun heq => hcoord (heq ▸ hc)
      refine ⟨(hmem c).mpr ⟨hcmem, hne⟩, fun x hx => ?_⟩
      obtain ⟨hxold, hxne⟩ := (hmem x).mp hx
      rw [heffect.role x hxne, if_neg fun hrep => hcoord hrep.1]
      exact hroles x hxold
  · -- another swarm: its members keep their roles
    have hc : r.tables.coordinators swarmId = some c := by
      split_ifs at hc
      · rwa [Function.update_of_ne hswarm] at hc
      · exact hc
    obtain ⟨hcmem, hroles⟩ := h c hc
    have hsets : r'.tables.swarmsById swarmId = r.tables.swarmsById swarmId := by
      rw [heffect.sets, Function.update_of_ne hswarm]
    rw [hsets]
    refine ⟨hcmem, fun x hx => ?_⟩
    have hxswarm := (r.registered.registered swarmId x).mp hx
    have hne : x ≠ sessionId := by
      rintro rfl
      exact hswarm (Option.some.inj (hxswarm.symm.trans heffect.swarm))
    have hnew : new ≠ some x := by
      intro hnew
      have hmem := heffect.member x hnew
      rw [heffect.sets, Function.update_self] at hmem
      have hxsid := (r.registered.registered sid x).mp (Finset.mem_of_mem_erase hmem)
      exact hswarm (Option.some.inj (hxswarm.symm.trans hxsid))
    rw [heffect.role x hne, if_neg fun hrep => hnew hrep.2]
    exact hroles x hx

/-- A promotion inside the swarm: the target is recorded, and everybody but the requester keeps its
role. -/
lemma agrees_promoted_iff (hr : SwarmTables.AssignEffect r.tables r'.tables reqSessionId
    targetSession "coordinator" swarmId) :
    Agrees swarmId r' ↔ targetSession ∈ r.tables.swarmsById swarmId ∧
      ∀ x ∈ r.tables.swarmsById swarmId, x ≠ targetSession → x ≠ reqSessionId →
        r.tables.roleOf x ≠ some "coordinator" := by
  have hplain : ("agent" : String) ≠ "coordinator" := by decide
  unfold Agrees
  simp only [hr.recorded, hr.sets, hr.role, true_and, if_true, Option.some.injEq, forall_eq']
  refine and_congr_right fun _ => forall₂_congr fun x _ => ?_
  by_cases hx : x = targetSession
  · simp [hx]
  · by_cases hxreq : x = reqSessionId
    · simp [hxreq, hplain, hxreq ▸ hx]
    · simp [hx, hxreq]

/-- A promotion inside another swarm: no member of this one is the requester. -/
lemma Agrees.promotedElsewhere_iff {sid : String} (h : Agrees swarmId r)
    (hr : SwarmTables.AssignEffect r.tables r'.tables reqSessionId targetSession "coordinator" sid)
    (hswarm : swarmId ≠ sid) :
    Agrees swarmId r' ↔ (targetSession ∈ r.tables.swarmsById swarmId →
      ∀ c, r.tables.coordinators swarmId = some c → c = targetSession) := by
  have hne (x : String) (hx : x ∈ r.tables.swarmsById swarmId) : x ≠ reqSessionId := by
    rintro rfl
    rw [r.registered.registered, hr.swarm] at hx
    exact hswarm (Option.some.inj hx).symm
  unfold Agrees
  rw [hr.sets, hr.recorded, if_neg fun hboth => hswarm hboth.2]
  constructor
  · intro hagree hmem c hc
    have hself := (hagree c hc).2 targetSession hmem
    rw [hr.role, if_neg fun hboth => hne _ hmem hboth.2.1, if_pos rfl] at hself
    exact (hself.mp rfl).symm
  · intro hkeep c hc
    refine ⟨(h c hc).1, fun x hx => ?_⟩
    rw [hr.role, if_neg fun hboth => hne x hx hboth.2.1]
    split_ifs with hxt
    · subst hxt
      simp [hkeep hx c hc]
    · exact (h c hc).2 x hx

/-- Any other role leaves what is recorded, and has to leave the recorded session its role. -/
lemma Agrees.otherRole_iff {sid : String} (h : Agrees swarmId r)
    (hr : SwarmTables.AssignEffect r.tables r'.tables reqSessionId targetSession role sid)
    (hrole : role ≠ "coordinator") :
    Agrees swarmId r' ↔ r.tables.coordinators swarmId ≠ some targetSession := by
  unfold Agrees
  rw [hr.sets, hr.recorded, if_neg fun hboth => hrole hboth.1]
  constructor
  · intro hagree hcoord
    obtain ⟨hmem, hroles⟩ := hagree targetSession hcoord
    have hself := (hroles targetSession hmem).mpr rfl
    rw [hr.role, if_neg fun hboth => hrole hboth.1, if_pos rfl] at hself
    exact hrole (Option.some.inj hself)
  · intro hkeep c hc
    refine ⟨(h c hc).1, fun x hx => ?_⟩
    rw [hr.role, if_neg fun hboth => hrole hboth.1]
    split_ifs with hxt
    · subst hxt
      have hxc : x ≠ c := fun heq => hkeep (heq ▸ hc)
      simp [hrole, hxc]
    · exact (h c hc).2 x hx

/-- A role request keeps the records in agreement exactly if it meets the condition. -/
lemma Agrees.assignRole_iff (h : Agrees swarmId r)
    (hs : r.step (.assignRole connections reqSessionId targetSession role) = some r') :
    Agrees swarmId r' ↔
      KeepsAgreement swarmId r (.assignRole connections reqSessionId targetSession role) := by
  obtain ⟨sid, heffect⟩ := SwarmTables.assignEffect_of_eq_ok r.registered (step_assignRole hs)
  unfold KeepsAgreement
  dsimp only
  by_cases hpromote : role = "coordinator"
  · subst hpromote
    rw [if_pos rfl]
    by_cases hswarm : swarmId = sid
    · subst hswarm
      rw [if_pos heffect.swarm]
      exact agrees_promoted_iff heffect
    · have hother : r.tables.swarmOf reqSessionId ≠ some swarmId := fun heq =>
        hswarm (Option.some.inj (heq.symm.trans heffect.swarm))
      rw [if_neg hother]
      exact h.promotedElsewhere_iff heffect hswarm
  · rw [if_neg hpromote]
    exact h.otherRole_iff heffect hpromote

end SwarmRegistry

open SwarmRegistry

/-- After any sequence of role requests and departures the two records of a swarm's coordinator
agree, in every state on the way: exactly if every request meets the condition. -/
theorem handleCommAssignRole_agrees_iff {swarmId : String} {r t : SwarmRegistry}
    {moves : List RoleMove} (hagree : Agrees swarmId r) (hrun : exec step r moves = some t) :
    Always step (Agrees swarmId) r moves ↔ Guarded step (KeepsAgreement swarmId) r moves := by
  have hiff {r r' : SwarmRegistry} {m : RoleMove} (h : Agrees swarmId r) (hs : r.step m = some r') :
      Agrees swarmId r' ↔ KeepsAgreement swarmId r m := by
    cases m with
    | assignRole connections reqSessionId targetSession role => exact h.assignRole_iff hs
    | leave sessionId departure => exact iff_of_true (h.leave hs) trivial
  exact always_iff_guarded (I := fun _ => True) (E := fun _ _ => True) (fun _ _ _ _ _ _ => trivial)
    (fun _ _ _ _ hP _ hG hs => (hiff hP hs).mpr hG)
    (fun _ _ _ _ hP _ hG hs hP' => hG ((hiff hP hs).mp hP')) trivial hagree
    (guarded_of_forall_mem fun _ _ _ => trivial) hrun

/-! ### A coordinator and a worker -/

def interactiveMember (sessionId role : String) : SwarmMember :=
  { readyAgent sessionId with role := role, isHeadless := false }

/-- Both are members of the swarm "swarm". -/
def pairTables : SwarmTables where
  members x := if x = "coord" then some (interactiveMember x "coordinator")
    else if x = "worker" then some (interactiveMember x "agent") else none
  swarmsById s := if s = "swarm" then {"coord", "worker"} else ∅
  coordinators s := if s = "swarm" then some "coord" else none
  plans _ := none

def pairRegistry : SwarmRegistry where
  tables := pairTables
  registered := by
    refine ⟨fun x member hmember => ?_, fun s x => ?_⟩
    · simp only [pairTables] at hmember
      split_ifs at hmember
      all_goals
        cases hmember
        rfl
    · have hswarm : pairTables.swarmOf x =
          if x = "coord" ∨ x = "worker" then some "swarm" else none := by
        by_cases hc : x = "coord" <;> by_cases hw : x = "worker" <;>
          simp [pairTables, SwarmTables.swarmOf, interactiveMember, readyAgent, hc, hw]
      rw [hswarm]
      by_cases hs : s = "swarm"
      · simp [pairTables, hs, or_iff_not_imp_left]
      · simp [pairTables, hs, Ne.symm hs]

lemma pairRegistry_agrees : Agrees "swarm" pairRegistry := by
  intro c hc
  cases hc
  decide

/-- Nobody has an open channel any more. -/
def disconnected : Connections where
  channelOpen _ := false
  inSessions _ := true

/-- The coordinator hands over to the worker and leaves. -/
def handoverMoves : List RoleMove :=
  [.assignRole disconnected "coord" "worker" "coordinator", .leave "coord" .removed]

theorem handleCommAssignRole_agrees_iff_handoverMoves :
    Always step (Agrees "swarm") pairRegistry handoverMoves ↔
      Guarded step (KeepsAgreement "swarm") pairRegistry handoverMoves := by
  obtain ⟨t, ht⟩ := Option.isSome_iff_exists.mp
    (show (exec step pairRegistry handoverMoves).isSome by decide +kernel)
  exact handleCommAssignRole_agrees_iff pairRegistry_agrees ht

/-- The worker promotes itself, and the coordinator that is gone keeps its role. -/
theorem handleCommAssignRole_disagrees :
    ¬ ∀ (swarmId : String) (r t : SwarmRegistry) (moves : List RoleMove),
        Agrees swarmId r → exec step r moves = some t → Agrees swarmId t := by
  intro h
  obtain ⟨t, ht, htwo⟩ := (Option.any_eq_true _ _).mp
    (show (exec step pairRegistry [.assignRole disconnected "worker" "worker" "coordinator"]).any
      (fun t => t.tables.coordinators "swarm" = some "worker" ∧
        "coord" ∈ t.tables.swarmsById "swarm" ∧
        t.tables.roleOf "coord" = some "coordinator") by decide +kernel)
  obtain ⟨hcoord, hmem, hrole⟩ := of_decide_eq_true htwo
  have hagree := h "swarm" pairRegistry t _ pairRegistry_agrees ht
  exact absurd (((hagree "worker" hcoord).2 "coord" hmem).mp hrole) (by decide)

end Jcode
