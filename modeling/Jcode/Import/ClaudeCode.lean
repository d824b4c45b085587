import Jcode.Message
import Mathlib.Data.List.Basic
import Mathlib.Data.List.Nodup

/-!
# Transcripts of Claude Code

The entries of a transcript point to their parents. The importer follows a chain of entries from
every root, and puts the entries that no chain has visited at the end. An entry is known by its
`uuid`: one without can be put down twice, and two of them can follow each other for ever.
-/

namespace Jcode

inductive ClaudeCodeContentBlock
  | text (text : String)
  | thinking (thinking : String)
  | toolUse (id name input : String)
  | toolResult (toolUseId content : String) (isError : Option Bool)
  | unknown
  deriving DecidableEq

inductive ClaudeCodeContent
  | empty
  | text (text : String)
  | blocks (blocks : List ClaudeCodeContentBlock)
  deriving DecidableEq

structure ClaudeCodeMessage where
  role : String
  model : Option String
  content : ClaudeCodeContent
  deriving DecidableEq

/-- The `timestamp` is kept as the time that it says. -/
structure ClaudeCodeEntry where
  entryType : String
  uuid : Option String
  parentUuid : Option String
  cwd : Option String
  message : Option ClaudeCodeMessage
  timestamp : Option Nat
  isSidechain : Bool
  deriving DecidableEq

/-- A message of a transcript, as it is to be appended. -/
structure ExternalMessage where
  id : Option String
  role : Role
  content : List ContentBlock
  timestamp : Option Nat
  deriving DecidableEq

def importedRole (role : String) : Option Role :=
  if role = "user" then some .user
  else if role = "assistant" then some .assistant
  else none

def convertContentBlock : ClaudeCodeContentBlock → Option ContentBlock
  | .text text => some (.text text none)
  | .thinking thinking => some (.reasoning thinking)
  | .toolUse id name input => some (.toolUse id name input)
  | .toolResult toolUseId content isError => some (.toolResult toolUseId content isError)
  | .unknown => none

def convertContentBlocks : ClaudeCodeContent → List ContentBlock
  | .empty => []
  | .text text => if text = "" then [] else [.text text none]
  | .blocks blocks => blocks.filterMap convertContentBlock

/-- The message of an entry, if it is not empty. -/
def convertEntry (entry : ClaudeCodeEntry) : Option ExternalMessage :=
  entry.message.bind fun message =>
    (importedRole message.role).bind fun role =>
      let content := convertContentBlocks message.content
      if content = [] then none else some ⟨entry.uuid, role, content, none⟩

/-! ### The order of the entries -/

def isMessageEntry (entry : ClaudeCodeEntry) : Bool :=
  (entry.entryType = "user" || entry.entryType = "assistant") && entry.message.isSome &&
    !entry.isSidechain

/-- The parent is not among the entries. -/
def isRoot (entries : List ClaudeCodeEntry) (entry : ClaudeCodeEntry) : Bool :=
  match entry.parentUuid with
  | none => true
  | some parent => parent ∉ entries.filterMap ClaudeCodeEntry.uuid

def isVisited (visited : List String) (entry : ClaudeCodeEntry) : Bool :=
  entry.uuid.any fun uuid => uuid ∈ visited

def nextEntry (entries : List ClaudeCodeEntry) (visited : List String)
    (current : ClaudeCodeEntry) : Option ClaudeCodeEntry :=
  entries.find? fun entry => entry.parentUuid = current.uuid && !isVisited visited entry

/-- How many entries are known by a `uuid` that was not visited. -/
def unvisited (entries : List ClaudeCodeEntry) (visited : List String) : Nat :=
  ((entries.filterMap ClaudeCodeEntry.uuid).filter fun uuid => uuid ∉ visited).length

lemma unvisited_append (entries : List ClaudeCodeEntry) (visited uuids : List String) :
    unvisited entries (visited ++ uuids) =
      (((entries.filterMap ClaudeCodeEntry.uuid).filter fun uuid => uuid ∉ visited).filter
        fun uuid => uuid ∉ uuids).length := by
  rw [unvisited, List.filter_filter]
  congr 2
  funext uuid
  simp [Bool.and_comm]

lemma unvisited_le (entries : List ClaudeCodeEntry) (visited uuids : List String) :
    unvisited entries (visited ++ uuids) ≤ unvisited entries visited := by
  rw [unvisited_append]
  exact List.length_filter_le _ _

lemma unvisited_lt {entries : List ClaudeCodeEntry} {visited : List String}
    {entry : ClaudeCodeEntry} {uuid : String} (hmem : entry ∈ entries)
    (huuid : entry.uuid = some uuid) (hvisited : uuid ∉ visited) :
    unvisited entries (visited ++ [uuid]) < unvisited entries visited := by
  rw [unvisited_append]
  refine List.length_filter_lt_length_iff_exists.mpr ⟨uuid, ?_, by simp⟩
  have huuids : uuid ∈ entries.filterMap ClaudeCodeEntry.uuid :=
    List.mem_filterMap.mpr ⟨entry, hmem, huuid⟩
  exact List.mem_filter.mpr ⟨huuids, decide_eq_true hvisited⟩

lemma mem_of_nextEntry {entries : List ClaudeCodeEntry} {visited : List String}
    {current next : ClaudeCodeEntry} (h : nextEntry entries visited current = some next) :
    next ∈ entries :=
  List.mem_of_find?_eq_some h

/-- What bounds the chain: an entry without `uuid` is followed by one with a new one. -/
def chainBound (entries : List ClaudeCodeEntry) (visited : List String)
    (current : ClaudeCodeEntry) : Nat :=
  2 * unvisited entries visited + (if current.uuid = none then 1 else 0) +
    if current ∈ entries then 0 else 2

/-- The loop over the chain of a root: what has been visited and the entries in order, or nothing
if it does not end. -/
def followChain (entries : List ClaudeCodeEntry) (visited : List String)
    (ordered : List ClaudeCodeEntry) (current : ClaudeCodeEntry) :
    Option (List String × List ClaudeCodeEntry) :=
  if isVisited visited current then some (visited, ordered)
  else
    match _hnext : nextEntry entries (visited ++ current.uuid.toList) current with
    | none => some (visited ++ current.uuid.toList, ordered ++ [current])
    | some next =>
      -- nothing new is visited: the entry after `next` is `next` again
      if current.uuid = none ∧ next.uuid = none then none
      else
        followChain entries (visited ++ current.uuid.toList) (ordered ++ [current]) next
termination_by chainBound entries visited current
decreasing_by
  rename_i hvisited hloop
  have hmem : next ∈ entries := mem_of_nextEntry _hnext
  have hle := unvisited_le entries visited current.uuid.toList
  rw [chainBound, chainBound, if_pos hmem]
  cases hcurrent : current.uuid with
  | none =>
    have hnext : next.uuid ≠ none := fun hnone => hloop ⟨hcurrent, hnone⟩
    rw [hcurrent] at hle
    simp only [if_neg hnext, if_true, Option.toList_none] at hle ⊢
    omega
  | some uuid =>
    simp only [reduceCtorEq, if_false, Option.toList_some]
    by_cases hin : current ∈ entries
    · have hnew : uuid ∉ visited := by simpa [isVisited, hcurrent] using hvisited
      have hlt := unvisited_lt hin hcurrent hnew
      split_ifs <;> omega
    · rw [hcurrent] at hle
      simp only [Option.toList_some] at hle
      split_ifs <;> omega

/-- The loop over the roots. -/
def followRoots (entries : List ClaudeCodeEntry) (visited : List String)
    (ordered : List ClaudeCodeEntry) : List ClaudeCodeEntry →
      Option (List String × List ClaudeCodeEntry)
  | [] => some (visited, ordered)
  | root :: roots =>
    (followChain entries visited ordered root).bind fun (visited, ordered) =>
      followRoots entries visited ordered roots

def orderedClaudeCodeMessageEntries (entries : List ClaudeCodeEntry) :
    Option (List ClaudeCodeEntry) :=
  let messageEntries := entries.filter isMessageEntry
  (followRoots messageEntries [] [] (messageEntries.filter (isRoot messageEntries))).map
    fun (visited, ordered) => ordered ++ messageEntries.filter fun entry => !isVisited visited entry

/-! ### Entries with ids of their own -/

/-- Every entry has a `uuid`, and no two have the same. -/
structure HaveOwnIds (entries : List ClaudeCodeEntry) : Prop where
  known : ∀ entry ∈ entries, entry.uuid ≠ none
  distinct : (entries.map ClaudeCodeEntry.uuid).Nodup

instance (entries : List ClaudeCodeEntry) : Decidable (HaveOwnIds entries) :=
  decidable_of_iff ((∀ entry ∈ entries, entry.uuid ≠ none) ∧
      (entries.map ClaudeCodeEntry.uuid).Nodup)
    ⟨fun ⟨hknown, hdistinct⟩ => ⟨hknown, hdistinct⟩, fun h => ⟨h.known, h.distinct⟩⟩

/-- The entries put down so far are those that were visited, each once. -/
structure PutDown (entries : List ClaudeCodeEntry) (visited : List String)
    (ordered : List ClaudeCodeEntry) : Prop where
  nodup : ordered.Nodup
  subset : ∀ entry ∈ ordered, entry ∈ entries
  visited : ∀ entry ∈ entries, isVisited visited entry = true ↔ entry ∈ ordered

variable {entries roots ordered : List ClaudeCodeEntry} {visited : List String}
  {current : ClaudeCodeEntry}

lemma putDown_nil : PutDown entries [] [] where
  nodup := .nil
  subset := by simp
  visited entry _ := by cases huuid : entry.uuid <;> simp [isVisited, huuid]

/-- One more entry is put down. -/
lemma PutDown.concat (hids : HaveOwnIds entries) (h : PutDown entries visited ordered)
    (hcurrent : current ∈ entries) (hnew : ¬ isVisited visited current = true) :
    PutDown entries (visited ++ current.uuid.toList) (ordered ++ [current]) := by
  obtain ⟨uuid, huuid⟩ := Option.ne_none_iff_exists'.mp (hids.known current hcurrent)
  have hnotMem : current ∉ ordered := mt (h.visited current hcurrent).mpr hnew
  refine ⟨?_, fun entry hentry => ?_, fun entry hentry => ?_⟩
  · rw [← List.concat_eq_append]
    exact h.nodup.concat hnotMem
  · rcases List.mem_append.mp hentry with hentry | hentry
    · exact h.subset entry hentry
    · rwa [List.mem_singleton.mp hentry]
  · have hsame : entry.uuid = some uuid ↔ entry = current := by
      constructor
      · intro heq
        exact List.inj_on_of_nodup_map hids.distinct hentry hcurrent (heq.trans huuid.symm)
      · rintro rfl
        exact huuid
    rw [List.mem_append, List.mem_singleton, ← h.visited entry hentry, ← hsame]
    cases hentry : entry.uuid <;> simp [isVisited, hentry, huuid]

/-- The chain of an entry ends, and puts down each entry once. -/
lemma exists_followChain (hids : HaveOwnIds entries) (h : PutDown entries visited ordered)
    (hcurrent : current ∈ entries) :
    ∃ read, followChain entries visited ordered current = some read ∧
      PutDown entries read.1 read.2 := by
  fun_induction followChain entries visited ordered current with
  | case1 => exact ⟨_, rfl, h⟩
  | case2 visited ordered current hnew => exact ⟨_, rfl, h.concat hids hcurrent hnew⟩
  | case3 _ _ _ _ next hnext hloop =>
    exact absurd hloop.2 (hids.known next (mem_of_nextEntry hnext))
  | case4 visited ordered current hnew next hnext _ ih =>
    exact ih (h.concat hids hcurrent hnew) (mem_of_nextEntry hnext)

lemma exists_followRoots (hids : HaveOwnIds entries) (h : PutDown entries visited ordered)
    (hroots : ∀ root ∈ roots, root ∈ entries) :
    ∃ read, followRoots entries visited ordered roots = some read ∧
      PutDown entries read.1 read.2 := by
  induction roots generalizing visited ordered with
  | nil => exact ⟨_, rfl, h⟩
  | cons root roots ih =>
    obtain ⟨hroot, hroots⟩ := List.forall_mem_cons.mp hroots
    obtain ⟨read, hread, hput⟩ := exists_followChain hids h hroot
    rw [followRoots, hread]
    exact ih hput hroots

/-- The importer reads every message entry once. -/
theorem exists_orderedClaudeCodeMessageEntries
    (hids : HaveOwnIds (entries.filter isMessageEntry)) :
    ∃ ordered, orderedClaudeCodeMessageEntries entries = some ordered ∧
      ordered.Perm (entries.filter isMessageEntry) := by
  set messageEntries := entries.filter isMessageEntry with hentries
  have hroots : ∀ root ∈ messageEntries.filter (isRoot messageEntries), root ∈ messageEntries :=
    fun root hroot => List.mem_of_mem_filter hroot
  obtain ⟨read, hread, hput⟩ := exists_followRoots hids putDown_nil hroots
  refine ⟨read.2 ++ messageEntries.filter fun entry => !isVisited read.1 entry, ?_, ?_⟩
  · simp only [orderedClaudeCodeMessageEntries, ← hentries, hread, Option.map_some]
  · have hnodup : messageEntries.Nodup := hids.distinct.of_map
    have hdisjoint :
        read.2.Disjoint (messageEntries.filter fun entry => !isVisited read.1 entry) := by
      intro entry hordered hrest
      obtain ⟨hmem, hnew⟩ := List.mem_filter.mp hrest
      simp [(hput.visited entry hmem).mpr hordered] at hnew
    refine (List.perm_ext_iff_of_nodup (hput.nodup.append (hnodup.filter _) hdisjoint) hnodup).mpr
      fun entry => ?_
    rw [List.mem_append, List.mem_filter]
    constructor
    · rintro (hentry | ⟨hentry, -⟩)
      · exact hput.subset entry hentry
      · exact hentry
    · intro hentry
      by_cases hordered : entry ∈ read.2
      · exact .inl hordered
      · refine .inr ⟨hentry, ?_⟩
        simpa using mt (hput.visited entry hentry).mp hordered

end Jcode
