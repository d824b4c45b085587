import Jcode.Foundation.PrunedMap
import Mathlib.Data.List.Sort
import Mathlib.Data.String.Basic

/-!
# Channel subscriptions

The index of the sessions that listen to the channels of a swarm, which is kept in both directions.
-/

namespace Jcode

open PrunedMap

structure ChannelIndex where
  bySwarmChannel : NestedMap String String String
  bySession : NestedMap String String String

namespace ChannelIndex

def empty : ChannelIndex := ⟨∅, ∅⟩

def subscribe (index : ChannelIndex) (session swarm channel : String) : ChannelIndex where
  bySwarmChannel := index.bySwarmChannel.insert swarm channel session
  bySession := index.bySession.insert session swarm channel

def unsubscribe (index : ChannelIndex) (session swarm channel : String) : ChannelIndex where
  bySwarmChannel := index.bySwarmChannel.erase swarm channel session
  bySession := index.bySession.erase session swarm channel

/-- The swarms are read in the order `swarms`, and the channels of each in its own. A session that
is not known is looked for in every channel. -/
def removeSession (index : ChannelIndex) (swarms : Reading String)
    (channels : String → Reading String) (session : String) : ChannelIndex :=
  match index.bySession.lookup session with
  | some subscriptions =>
    { bySwarmChannel := index.bySwarmChannel.drop (swarms.list subscriptions.keys)
        (fun swarm _ => (channels swarm).list (entry subscriptions swarm)) session
      bySession := Finmap.erase session index.bySession }
  | none =>
    { index with
      bySwarmChannel := index.bySwarmChannel.drop (swarms.list index.bySwarmChannel.keys)
        (fun swarm subs => (channels swarm).list subs.keys) session }

def members (index : ChannelIndex) (sessions : Reading String) (swarm channel : String) :
    List String :=
  let found := (index.bySwarmChannel.lookup swarm).bind (·.lookup channel)
  ((found.map sessions.list).getD []).insertionSort (· ≤ ·)

end ChannelIndex

/-! ### Calls -/

/-- A call, with the orders in which it reads the maps and sets. -/
inductive ChannelCall where
  | subscribe (session swarm channel : String)
  | unsubscribe (session swarm channel : String)
  | removeSession (swarms : Reading String) (channels : String → Reading String) (session : String)

namespace ChannelCall

def apply (index : ChannelIndex) : ChannelCall → ChannelIndex
  | subscribe session swarm channel => index.subscribe session swarm channel
  | unsubscribe session swarm channel => index.unsubscribe session swarm channel
  | removeSession swarms channels session => index.removeSession swarms channels session

def session : ChannelCall → String
  | subscribe session _ _ => session
  | unsubscribe session _ _ => session
  | removeSession _ _ session => session

/-- The call ends the subscription of the session. -/
def Ends (call : ChannelCall) (session swarm channel : String) : Prop :=
  call = unsubscribe session swarm channel ∨
    ∃ swarms channels, call = removeSession swarms channels session

end ChannelCall

namespace ChannelIndex

/-- The index after some calls on an empty one. -/
def after (calls : List ChannelCall) : ChannelIndex := calls.foldl ChannelCall.apply empty

/-- Among the calls is one that subscribes the session, and none after it ends that. -/
def SubscribedIn (calls : List ChannelCall) (session swarm channel : String) : Prop :=
  ∃ earlier later, calls = earlier ++ .subscribe session swarm channel :: later ∧
    ∀ call ∈ later, ¬ call.Ends session swarm channel

/-- The maps tell the same, and no map or set in them is empty. -/
structure InSync (index : ChannelIndex) : Prop where
  bySwarmChannel : index.bySwarmChannel.NoneEmpty
  bySession : index.bySession.NoneEmpty
  iff : ∀ session swarm channel, index.bySwarmChannel.Has swarm channel session ↔
    index.bySession.Has session swarm channel

variable {index : ChannelIndex} {call : ChannelCall} {calls : List ChannelCall}
  {session swarm channel : String}

/-! ### One call -/

lemma has_removeSession_bySwarmChannel (h : index.InSync) {swarms : Reading String}
    {channels : String → Reading String} {removed : String} :
    (index.removeSession swarms channels removed).bySwarmChannel.Has swarm channel session ↔
      index.bySwarmChannel.Has swarm channel session ∧ session ≠ removed := by
  have hswarms (keys : Finset String) := swarms.nodup keys
  have hchannels (swarm : String) (keys : Finset String) := (channels swarm).nodup keys
  cases hlookup : index.bySession.lookup removed with
  | some subscriptions =>
    rw [removeSession, hlookup, NestedMap.has_drop (hswarms _) fun _ _ => hchannels _ _]
    refine and_congr_right fun hhas => not_congr ⟨fun hmem => hmem.2.2, ?_⟩
    rintro rfl
    -- what is to be removed is recorded
    obtain ⟨subs, hsubs, set, hset, hmem⟩ := (h.iff _ _ _).mp hhas
    obtain rfl : subscriptions = subs := Option.some.inj (hlookup.symm.trans hsubs)
    rw [swarms.mem_list, (channels swarm).mem_list, Finmap.mem_keys, Finmap.mem_iff]
    exact ⟨⟨set, hset⟩, by simpa [entry, Option.mem_def.mp hset] using hmem, rfl⟩
  | none =>
    rw [removeSession, hlookup, NestedMap.has_drop (hswarms _) fun _ _ => hchannels _ _]
    refine and_congr_right fun hhas => ?_
    -- nothing is recorded, so the session has no subscription
    have hne : session ≠ removed := by
      rintro rfl
      obtain ⟨subs, hsubs, -⟩ := (h.iff _ _ _).mp hhas
      rw [hlookup] at hsubs
      cases hsubs
    simp [hne]

lemma has_removeSession_bySession {swarms : Reading String} {channels : String → Reading String}
    {removed : String} :
    (index.removeSession swarms channels removed).bySession.Has session swarm channel ↔
      index.bySession.Has session swarm channel ∧ session ≠ removed := by
  have herase : (index.removeSession swarms channels removed).bySession =
      Finmap.erase removed index.bySession := by
    cases hlookup : index.bySession.lookup removed with
    | some subscriptions => simp [removeSession, hlookup]
    | none =>
      rw [removeSession, hlookup]
      refine Finmap.ext_lookup fun key => ?_
      by_cases hkey : key = removed
      · rw [hkey, Finmap.lookup_erase, hlookup]
      · rw [Finmap.lookup_erase_ne hkey]
  rw [herase, NestedMap.Has, NestedMap.Has]
  by_cases hremoved : session = removed
  · subst hremoved
    simp
  · simp [hremoved]

lemma has_apply_bySession : (call.apply index).bySession.Has session swarm channel ↔
    call = .subscribe session swarm channel ∨
      index.bySession.Has session swarm channel ∧ ¬ call.Ends session swarm channel := by
  cases call with
  | subscribe session' swarm' channel' =>
    rw [ChannelCall.apply, subscribe, NestedMap.has_insert]
    simp [ChannelCall.Ends, or_comm, eq_comm]
  | unsubscribe session' swarm' channel' =>
    rw [ChannelCall.apply, unsubscribe, NestedMap.has_erase]
    simp [ChannelCall.Ends, eq_comm]
  | removeSession swarms channels session' =>
    rw [ChannelCall.apply, has_removeSession_bySession]
    simp [ChannelCall.Ends, eq_comm]

lemma InSync.apply (h : index.InSync) : (call.apply index).InSync := by
  cases call with
  | subscribe session' swarm' channel' =>
    refine ⟨h.bySwarmChannel.insert, h.bySession.insert, fun session swarm channel => ?_⟩
    rw [ChannelCall.apply, subscribe, NestedMap.has_insert, NestedMap.has_insert, h.iff]
    tauto
  | unsubscribe session' swarm' channel' =>
    refine ⟨h.bySwarmChannel.erase, h.bySession.erase, fun session swarm channel => ?_⟩
    rw [ChannelCall.apply, unsubscribe, NestedMap.has_erase, NestedMap.has_erase, h.iff]
    tauto
  | removeSession swarms channels session' =>
    refine ⟨?_, ?_, fun session swarm channel => ?_⟩
    · rw [ChannelCall.apply, removeSession]
      split
      · exact h.bySwarmChannel.drop (swarms.nodup _)
      · exact h.bySwarmChannel.drop (swarms.nodup _)
    · rw [ChannelCall.apply, removeSession]
      split
      · exact h.bySession.finmap_erase
      · exact h.bySession
    · rw [ChannelCall.apply, has_removeSession_bySwarmChannel h, has_removeSession_bySession, h.iff]

/-- What another session is subscribed to is not touched. -/
lemma lookup_apply_of_ne (hne : session ≠ call.session) :
    (call.apply index).bySession.lookup session = index.bySession.lookup session := by
  cases call with
  | subscribe session' swarm' channel' => exact lookup_put_of_ne hne
  | unsubscribe session' swarm' channel' => exact lookup_prune_of_ne hne
  | removeSession swarms channels session' =>
    rw [ChannelCall.apply, removeSession]
    split
    · exact Finmap.lookup_erase_ne hne
    · rfl

/-! ### Sequences of calls -/

lemma after_concat : after (calls ++ [call]) = call.apply (after calls) := by
  simp [after]

lemma inSync_after : (after calls).InSync := by
  induction calls using List.reverseRecOn with
  | nil =>
    refine ⟨NestedMap.noneEmpty_empty, NestedMap.noneEmpty_empty, fun session swarm channel => ?_⟩
    simp [after, empty]
  | append_singleton calls call ih =>
    rw [after_concat]
    exact ih.apply

lemma subscribedIn_concat : SubscribedIn (calls ++ [call]) session swarm channel ↔
    call = .subscribe session swarm channel ∨
      SubscribedIn calls session swarm channel ∧ ¬ call.Ends session swarm channel := by
  constructor
  · rintro ⟨earlier, later, heq, hlater⟩
    cases later using List.reverseRecOn with
    | nil =>
      obtain ⟨-, hcall⟩ := List.append_inj' heq rfl
      exact .inl (List.singleton_inj.mp hcall)
    | append_singleton later last =>
      rw [← List.cons_append, ← List.append_assoc] at heq
      obtain ⟨hcalls, hcall⟩ := List.append_inj' heq rfl
      obtain rfl := List.singleton_inj.mp hcall
      refine .inr ⟨⟨earlier, later, hcalls, fun other hother => ?_⟩, ?_⟩
      · exact hlater other (List.mem_append_left _ hother)
      · exact hlater call (List.mem_append_right _ List.mem_cons_self)
  · rintro (rfl | ⟨⟨earlier, later, rfl, hlater⟩, hcall⟩)
    · exact ⟨calls, [], rfl, fun other hother => absurd hother List.not_mem_nil⟩
    · refine ⟨earlier, later ++ [call], by simp, fun other hother => ?_⟩
      rcases List.mem_append.mp hother with hother | hother
      · exact hlater other hother
      · rwa [List.mem_singleton.mp hother]

lemma has_after : (after calls).bySession.Has session swarm channel ↔
    SubscribedIn calls session swarm channel := by
  induction calls using List.reverseRecOn with
  | nil =>
    have hnone : ¬ SubscribedIn [] session swarm channel := by
      rintro ⟨earlier, later, heq, -⟩
      simp at heq
    simp [after, empty, hnone]
  | append_singleton calls call ih =>
    rw [after_concat, has_apply_bySession, subscribedIn_concat, ih]

lemma mem_members {sessions : Reading String} : session ∈ index.members sessions swarm channel ↔
    index.bySwarmChannel.Has swarm channel session := by
  rw [members, List.mem_insertionSort, NestedMap.Has]
  cases hsubs : index.bySwarmChannel.lookup swarm with
  | none => simp
  | some subs =>
    cases hset : subs.lookup channel with
    | none => simp [hset]
    | some set => simp [hset, sessions.mem_list]

lemma pairwise_members {sessions : Reading String} :
    (index.members sessions swarm channel).Pairwise (· < ·) := by
  have hsorted : (index.members sessions swarm channel).SortedLE := List.sortedLE_insertionSort
  refine (hsorted.sortedLT_of_nodup ?_).pairwise
  rw [members, (List.perm_insertionSort _ _).nodup_iff]
  cases (index.bySwarmChannel.lookup swarm).bind (·.lookup channel) with
  | none => simp
  | some set => exact sessions.nodup set

/-- After any calls on an empty index its maps tell the same and have nothing empty in them. The
members of a channel are the sessions subscribed to it and no others, in order and each once. A call
leaves the subscriptions of the other sessions as they are. -/
theorem after_spec (calls : List ChannelCall) :
    (∀ session swarm channel, (after calls).bySwarmChannel.Has swarm channel session ↔
      (after calls).bySession.Has session swarm channel) ∧
    (after calls).bySwarmChannel.NoneEmpty ∧ (after calls).bySession.NoneEmpty ∧
    (∀ sessions swarm channel,
      ((after calls).members sessions swarm channel).Pairwise (· < ·) ∧
      ∀ session, session ∈ (after calls).members sessions swarm channel ↔
        SubscribedIn calls session swarm channel) ∧
    ∀ call session, session ≠ call.session →
      (after (calls ++ [call])).bySession.lookup session =
        (after calls).bySession.lookup session ∧
      ∀ swarm channel, (after (calls ++ [call])).bySwarmChannel.Has swarm channel session ↔
        (after calls).bySwarmChannel.Has swarm channel session := by
  have hsync : (after calls).InSync := inSync_after
  refine ⟨hsync.iff, hsync.bySwarmChannel, hsync.bySession, fun sessions swarm channel => ?_, ?_⟩
  · refine ⟨pairwise_members, fun session => ?_⟩
    rw [mem_members, hsync.iff, has_after]
  · intro call session hne
    have hlookup : (call.apply (after calls)).bySession.lookup session =
        (after calls).bySession.lookup session := lookup_apply_of_ne hne
    rw [after_concat]
    refine ⟨hlookup, fun swarm channel => ?_⟩
    rw [hsync.apply.iff, hsync.iff, NestedMap.Has, NestedMap.Has, hlookup]

end ChannelIndex

end Jcode
