import Jcode.Foundation.CharBytes
import Jcode.Foundation.SplitFirst
import Jcode.Swarm.Coordinator
import Jcode.Foundation.SortedMap

/-!
# File activity

The server records which session touched which file, in `file_touches` by path and in
`files_touched_by_session` by session, and tells the sessions of a swarm when one of them modifies
what another has modified (`monitor_bus`). A session that leaves takes its touches with it
(`remove_session_file_touches`). The monitor is one task, removals are others, and each of them
holds one lock at a time.
-/

namespace Jcode.FileActivity

open Schedule

inductive FileOp
  | read
  | write
  | edit
deriving DecidableEq

def FileOp.asStr : FileOp → String
  | read => "read"
  | write => "wrote"
  | edit => "edited"

def FileOp.isModification : FileOp → Bool
  | read => false
  | write | edit => true

/-- An event of the bus. -/
structure FileTouch where
  sessionId : String
  path : String
  op : FileOp
  summary : Option String
  detail : Option String
deriving DecidableEq

/-- Instants are nanoseconds. -/
structure FileAccess where
  sessionId : String
  op : FileOp
  timestamp : Nat
  summary : Option String
  detail : Option String
deriving DecidableEq

def FileTouch.access (touch : FileTouch) (now : Nat) : FileAccess where
  sessionId := touch.sessionId
  op := touch.op
  timestamp := now
  summary := touch.summary
  detail := touch.detail

def seconds (n : Nat) : Nat := n * 10 ^ 9

def touchExpiry : Nat := seconds (30 * 60)

def cleanupInterval : Nat := seconds (5 * 60)

/-! ### The maps -/

/-- `file_touches`. No operation leaves an empty list of accesses behind. -/
structure Touches where
  entries : List (String × List FileAccess)
  sorted : SortedMap.Sorted entries

namespace Touches

def empty : Touches := ⟨[], .nil⟩

def accesses (touches : Touches) (path : String) : List FileAccess :=
  (SortedMap.get path touches.entries).getD []

def record (touches : Touches) (path : String) (access : FileAccess) : Touches where
  entries := SortedMap.insert path (touches.accesses path ++ [access]) touches.entries
  sorted := touches.sorted.insert

def retainEntry (keep : String → FileAccess → Bool) (entry : String × List FileAccess) :
    Option (String × List FileAccess) :=
  match entry.2.filter (keep entry.1) with
  | [] => none
  | kept => some (entry.1, kept)

lemma retainEntry_key {keep : String → FileAccess → Bool} {entry kept : String × List FileAccess}
    (h : retainEntry keep entry = some kept) : kept.1 = entry.1 := by
  unfold retainEntry at h
  split at h
  next => cases h
  next => cases h; rfl

/-- Drop what is not to be kept, and the paths that are left without an access. -/
def retain (touches : Touches) (keep : String → FileAccess → Bool) : Touches where
  entries := touches.entries.filterMap (retainEntry keep)
  sorted := by
    rw [SortedMap.Sorted, List.pairwise_filterMap]
    refine touches.sorted.imp ?_
    intro entry entry' hlt kept hkept kept' hkept'
    rw [retainEntry_key hkept, retainEntry_key hkept']
    exact hlt

end Touches

/-- `files_touched_by_session`. -/
abbrev Index := List (String × Finset String)

namespace Index

def paths (index : Index) (session : String) : Finset String :=
  (SortedMap.get session index).getD ∅

def add (index : Index) (session path : String) : Index :=
  SortedMap.insert session (insert path (index.paths session)) index

/-- The index that the periodic cleanup builds. -/
def rebuild (touches : Touches) : Index :=
  (touches.entries.flatMap fun entry => entry.2.map fun access => (access.sessionId, entry.1)).foldl
    (fun index touched => index.add touched.1 touched.2) []

end Index

namespace Touches

variable {touches : Touches} {path path' : String} {access : FileAccess}
  {keep : String → FileAccess → Bool}

lemma accesses_record : (touches.record path access).accesses path' =
    touches.accesses path' ++ if path = path' then [access] else [] := by
  rw [accesses, record, SortedMap.get_insert]
  split_ifs with h
  · rw [h]
    rfl
  · rw [List.append_nil]
    rfl

lemma getD_filterMap {entries : List (String × List FileAccess)}
    (hsorted : SortedMap.Sorted entries) :
    (SortedMap.get path (entries.filterMap (retainEntry keep))).getD [] =
      ((SortedMap.get path entries).getD []).filter (keep path) := by
  induction entries with
  | nil => rfl
  | cons entry entries ih =>
    obtain ⟨hhead, htail⟩ := List.pairwise_cons.mp hsorted
    have ih := ih htail
    rw [SortedMap.get_cons]
    by_cases hpath : entry.1 = path
    · -- no other entry is at this path
      have hnone : SortedMap.get path entries = none := by
        rw [SortedMap.get_eq_none_iff]
        intro other hother
        exact hpath ▸ (hhead other hother).ne'
      rw [hnone] at ih
      rw [if_pos hpath, Option.getD_some]
      cases hkept : entry.2.filter (keep entry.1) with
      | nil =>
        have hentry : retainEntry keep entry = none := by rw [retainEntry, hkept]
        rw [List.filterMap_cons_none hentry, ih, ← hpath, hkept]
        rfl
      | cons a kept =>
        have hentry : retainEntry keep entry = some (entry.1, a :: kept) := by
          rw [retainEntry, hkept]
        rw [List.filterMap_cons_some hentry, SortedMap.get_cons, if_pos hpath, ← hpath, hkept]
        rfl
    · rw [if_neg hpath, ← ih]
      cases hentry : retainEntry keep entry with
      | none => rw [List.filterMap_cons_none hentry]
      | some kept =>
        rw [List.filterMap_cons_some hentry, SortedMap.get_cons, retainEntry_key hentry,
          if_neg hpath]

@[simp] lemma accesses_retain :
    (touches.retain keep).accesses path = (touches.accesses path).filter (keep path) :=
  getD_filterMap touches.sorted

lemma exists_entry (h : access ∈ touches.accesses path) :
    ∃ accesses, (path, accesses) ∈ touches.entries ∧ access ∈ accesses := by
  unfold accesses at h
  cases hget : SortedMap.get path touches.entries with
  | none => simp [hget] at h
  | some accesses =>
    rw [hget] at h
    exact ⟨accesses, SortedMap.mem_of_get hget, h⟩

end Touches

namespace Index

variable {index : Index} {session session' path path' : String}

lemma mem_paths_add : path' ∈ (index.add session path).paths session' ↔
    session' = session ∧ path' = path ∨ path' ∈ index.paths session' := by
  rw [add, paths, SortedMap.get_insert]
  split_ifs with h
  · subst h
    simp
  · simp [paths, Ne.symm h]

lemma mem_paths_foldl {touched : List (String × String)} :
    path ∈ Index.paths (touched.foldl (fun index touched => index.add touched.1 touched.2) index)
      session ↔ (session, path) ∈ touched ∨ path ∈ index.paths session := by
  induction touched generalizing index with
  | nil => simp
  | cons pair touched ih =>
    rw [List.foldl_cons, ih, mem_paths_add, List.mem_cons, Prod.ext_iff]
    tauto

lemma mem_paths_rebuild {touches : Touches} {access : FileAccess}
    (h : access ∈ touches.accesses path) : path ∈ (rebuild touches).paths access.sessionId := by
  obtain ⟨accesses, hentry, haccess⟩ := Touches.exists_entry h
  apply mem_paths_foldl.mpr
  left
  rw [List.mem_flatMap]
  exact ⟨_, hentry, List.mem_map.mpr ⟨access, haccess, rfl⟩⟩

lemma paths_erase_of_ne (h : session' ≠ session) :
    Index.paths (SortedMap.erase session index) session' = index.paths session' := by
  rw [paths, SortedMap.get_erase, if_neg (Ne.symm h)]
  rfl

end Index

/-! ### Peers -/

def peerModification (current : String) (swarm : Finset String) (access : FileAccess) : Bool :=
  access.sessionId ≠ current && access.sessionId ∈ swarm && access.op.isModification

/-- The later of two accesses, the first one when they are from one instant. -/
def laterOf (existing : Option FileAccess) (access : FileAccess) : FileAccess :=
  match existing with
  | some existing => if existing.timestamp < access.timestamp then access else existing
  | none => access

def keepLatest (latest : List (String × FileAccess)) (access : FileAccess) :
    List (String × FileAccess) :=
  SortedMap.insert access.sessionId (laterOf (SortedMap.get access.sessionId latest) access) latest

def latestPeerTouches (accesses : List FileAccess) (current : String) (swarm : Finset String) :
    List FileAccess :=
  ((accesses.filter (peerModification current swarm)).foldl keepLatest []).map Prod.snd

/-- The sessions of the swarm that a session is in. -/
def swarmSessionIds (tables : SwarmTables) (session : String) : Finset String :=
  ((tables.swarmOf session).map tables.swarmsById).getD ∅

/-! ### Line ranges -/

def takeDigits (text : List Char) : List Char := text.takeWhile Char.isDigit

/-- `str::parse::<u64>` of digits. -/
def parseU64 (digits : List Char) : Option Nat :=
  if digits = [] then none
  else
    let value := Nat.ofDigitChars 10 digits 0
    if value < 2 ^ 64 then some value else none

def parseLineRange (rest : List Char) : Option (Nat × Nat) :=
  let digits := takeDigits rest
  (parseU64 digits).map fun start =>
    match rest.drop digits.length with
    | '-' :: rest =>
      let stop := (parseU64 (takeDigits rest)).getD start
      (min start stop, max start stop)
    | _ => (start, start)

def parseFileActivityLineRange (summary : Option String) : Option (Nat × Nat) :=
  summary.bind fun summary =>
    match splitFirst "lines ".toList summary.toList with
    | some (_, rest) => parseLineRange rest
    | none => (splitFirst "line ".toList summary.toList).bind fun parts => parseLineRange parts.2

def fileActivityScopeLabel (previous : FileAccess) (current : FileTouch) : String :=
  match parseFileActivityLineRange previous.summary,
    parseFileActivityLineRange current.summary with
  | some (prevStart, prevEnd), some (currentStart, currentEnd) =>
    if prevStart ≤ currentEnd ∧ currentStart ≤ prevEnd then "overlapping lines"
    else "same file, non-overlapping lines"
  | _, _ => "same file"

/-! ### Alerts -/

/-- `&text[..n]`; `none` is a panic. -/
def textHead (text : String) (n : Nat) : Option String :=
  (CharBytes.cut text.toList n).map fun parts => String.ofList parts.1

def shortId (session : String) : Option String :=
  textHead session (min 8 (CharBytes.width session.toList))

/-- A notification of a file conflict, whose message is also queued as a soft interrupt. -/
structure Alert where
  recipient : String
  fromSession : String
  fromName : Option String
  path : String
  operation : String
  summary : Option String
  detail : Option String
  message : String
deriving DecidableEq

def summarySuffix (summary : Option String) : String := (summary.map (": " ++ ·)).getD ""

def friendlyName (tables : SwarmTables) (session : String) : Option String :=
  (tables.members session).bind (·.friendlyName)

/-- The session that modifies a file hears of what a peer has done. -/
def alertToCurrent (tables : SwarmTables) (touch : FileTouch) (prev : FileAccess) (head : String) :
    Alert where
  recipient := touch.sessionId
  fromSession := prev.sessionId
  fromName := friendlyName tables prev.sessionId
  path := touch.path
  operation := prev.op.asStr
  summary := prev.summary
  detail := prev.detail
  message := "⚠ File activity: " ++ touch.path ++ " — " ++ fileActivityScopeLabel prev touch ++
    " — " ++ (friendlyName tables prev.sessionId).getD head ++ " previously " ++ prev.op.asStr ++
    " this file" ++ summarySuffix prev.summary

/-- The peer hears of the modification. -/
def alertToPrevious (tables : SwarmTables) (touch : FileTouch) (prev : FileAccess) (head : String) :
    Alert where
  recipient := prev.sessionId
  fromSession := touch.sessionId
  fromName := friendlyName tables touch.sessionId
  path := touch.path
  operation := touch.op.asStr
  summary := touch.summary
  detail := touch.detail
  message := "⚠ File activity: " ++ touch.path ++ " — " ++ fileActivityScopeLabel prev touch ++
    " — " ++ (friendlyName tables touch.sessionId).getD head ++ " just " ++ touch.op.asStr ++
    " this file you previously worked with" ++ summarySuffix touch.summary

/-- The name of a peer is cut at eight bytes before it is known whether it is needed. -/
def sliceable (prev : FileAccess) : Bool := (textHead prev.sessionId 8).isSome

def alertsToCurrent (tables : SwarmTables) (touch : FileTouch) (previous : List FileAccess) :
    List Alert :=
  if (tables.members touch.sessionId).isSome then
    (previous.takeWhile sliceable).filterMap fun prev =>
      (textHead prev.sessionId 8).map (alertToCurrent tables touch prev)
  else []

def alertsToPrevious (tables : SwarmTables) (touch : FileTouch) (previous : List FileAccess) :
    List Alert :=
  previous.filterMap fun prev =>
    (tables.members prev.sessionId).bind fun _ =>
      (shortId touch.sessionId).map (alertToPrevious tables touch prev)

/-! ### The tasks -/

/-- Where the monitor is in its loop. -/
inductive Monitor
  | checking
  | storing (index : Index)
  | receiving
  | indexing (touch : FileTouch)
  | seeking (touch : FileTouch)
  | lookingUp (touch : FileTouch) (peers : Finset String)
  | alerting (touch : FileTouch) (previous : List FileAccess)
  | panicked

/-- A call of `remove_session_file_touches` between its two locks, with what it has taken out of
the index. -/
structure Removal where
  session : String
  taken : Option (Finset String)

/-- Without an entry in the index every path is looked at. -/
def Removal.selects (removal : Removal) (path : String) (access : FileAccess) : Bool :=
  access.sessionId = removal.session && removal.taken.all fun paths => path ∈ paths

structure State where
  touches : Touches
  touchedBySession : Index
  removals : List Removal
  tables : SwarmTables
  monitor : Monitor
  lastCleanup : Nat
  alerts : List Alert

/-- The server starts with empty maps. -/
def start (tables : SwarmTables) (now : Nat) : State where
  touches := .empty
  touchedBySession := []
  removals := []
  tables := tables
  monitor := .checking
  lastCleanup := now
  alerts := []

/-- One step of the monitor, of a removal or of what else changes the swarms. -/
inductive Move
  | check (now : Nat)
  | store (now : Nat)
  | receive (touch : FileTouch) (now : Nat)
  | skip
  | index
  | seek
  | lookUp
  | alert
  | beginRemoval (session : String)
  | finishRemoval (i : Nat)
  | setTables (tables : SwarmTables)

namespace State

/-- Expired touches are dropped if the last cleanup was long ago. -/
def check (s : State) (now : Nat) : State :=
  if cleanupInterval < now - s.lastCleanup then
    let touches := s.touches.retain fun _ access => now - access.timestamp < touchExpiry
    { s with touches := touches, monitor := .storing (.rebuild touches) }
  else { s with monitor := .receiving }

def store (s : State) (index : Index) (now : Nat) : State :=
  { s with touchedBySession := index, lastCleanup := now, monitor := .receiving }

def receive (s : State) (touch : FileTouch) (now : Nat) : State :=
  { s with
    touches := s.touches.record touch.path (touch.access now)
    monitor := .indexing touch }

def index (s : State) (touch : FileTouch) : State :=
  { s with
    touchedBySession := s.touchedBySession.add touch.sessionId touch.path
    monitor := .seeking touch }

def seek (s : State) (touch : FileTouch) : State :=
  { s with monitor := .lookingUp touch (swarmSessionIds s.tables touch.sessionId) }

/-- A modification is logged with the heads of all ids, before the other touches are looked up. -/
def lookUp (s : State) (touch : FileTouch) (peers : Finset String) : State :=
  if !touch.op.isModification then { s with monitor := .checking }
  else if (shortId touch.sessionId).isNone ∨ ∃ peer ∈ peers, (shortId peer).isNone then
    { s with monitor := .panicked }
  else
    match latestPeerTouches (s.touches.accesses touch.path) touch.sessionId peers with
    | [] => { s with monitor := .checking }
    | previous => { s with monitor := .alerting touch previous }

def alert (s : State) (touch : FileTouch) (previous : List FileAccess) : State :=
  let toCurrent := alertsToCurrent s.tables touch previous
  if (s.tables.members touch.sessionId).isSome && !previous.all sliceable then
    { s with alerts := s.alerts ++ toCurrent, monitor := .panicked }
  else
    { s with
      alerts := s.alerts ++ (toCurrent ++ alertsToPrevious s.tables touch previous)
      monitor := .checking }

def beginRemoval (s : State) (session : String) : State :=
  { s with
    touchedBySession := SortedMap.erase session s.touchedBySession
    removals := s.removals ++ [⟨session, SortedMap.get session s.touchedBySession⟩] }

def finishRemoval (s : State) (i : Nat) (removal : Removal) : State :=
  { s with
    touches := s.touches.retain fun path access => !removal.selects path access
    removals := s.removals.eraseIdx i }

end State

def step (s : State) : Move → Option State
  | .check now =>
    match s.monitor with
    | .checking => some (s.check now)
    | _ => none
  | .store now =>
    match s.monitor with
    | .storing index => some (s.store index now)
    | _ => none
  | .receive touch now =>
    match s.monitor with
    | .receiving => some (s.receive touch now)
    | _ => none
  | .skip =>
    match s.monitor with
    | .receiving => some { s with monitor := .checking }
    | _ => none
  | .index =>
    match s.monitor with
    | .indexing touch => some (s.index touch)
    | _ => none
  | .seek =>
    match s.monitor with
    | .seeking touch => some (s.seek touch)
    | _ => none
  | .lookUp =>
    match s.monitor with
    | .lookingUp touch peers => some (s.lookUp touch peers)
    | _ => none
  | .alert =>
    match s.monitor with
    | .alerting touch previous => some (s.alert touch previous)
    | _ => none
  | .beginRemoval session => some (s.beginRemoval session)
  | .finishRemoval i => (s.removals[i]?).map (s.finishRemoval i)
  | .setTables tables => some { s with tables := tables }

/-! ### The index -/

variable {s s' t : State} {i : Move} {is js : List Move} {session path : String}
  {access : FileAccess} {touch : FileTouch}

/-- The removal takes away what the session has done to the path. -/
def Removal.Covers (removal : Removal) (session path : String) : Prop :=
  removal.session = session ∧ ∀ paths ∈ removal.taken, path ∈ paths

/-- A task holds the touch that is next to be indexed. -/
def State.IsIndexing (s : State) (session path : String) : Prop :=
  ∃ touch, s.monitor = .indexing touch ∧ touch.sessionId = session ∧ touch.path = path

/-- The index knows that the session has touched the path, or one of the tasks does. -/
def State.Accounts (s : State) (session path : String) : Prop :=
  path ∈ s.touchedBySession.paths session ∨ s.IsIndexing session path ∨
    ∃ removal ∈ s.removals, removal.Covers session path

/-- Every access is accounted for, also when a new index is about to be stored. -/
structure State.Indexed (s : State) : Prop where
  accounts : ∀ path, ∀ access ∈ s.touches.accesses path, s.Accounts access.sessionId path
  storing : ∀ index, s.monitor = .storing index →
    ∀ path, ∀ access ∈ s.touches.accesses path, path ∈ index.paths access.sessionId

lemma Removal.selects_iff {removal : Removal} : removal.selects path access ↔
    access.sessionId = removal.session ∧ ∀ paths ∈ removal.taken, path ∈ paths := by
  cases htaken : removal.taken <;> simp [selects, htaken]

/-- What a removal covers is not kept, so another one covers what is. -/
lemma mem_removals_finishRemoval {k : Nat} {removal other : Removal}
    (hremoval : s.removals[k]? = some removal) (hother : other ∈ s.removals)
    (hcovers : other.Covers access.sessionId path) (hkept : !removal.selects path access) :
    other ∈ (s.finishRemoval k removal).removals := by
  apply List.mem_eraseIdx_iff_getElem?.mpr
  obtain ⟨j, hj⟩ := List.getElem?_of_mem hother
  refine ⟨j, ?_, hj⟩
  rintro rfl
  obtain rfl := Option.some.inj (hremoval.symm.trans hj)
  have hselects : removal.selects path access :=
    Removal.selects_iff.mpr ⟨hcovers.1.symm, hcovers.2⟩
  simp [hselects] at hkept

namespace State.Indexed

/-- Steps that leave the maps and the removals as they are. -/
lemma of_frame (h : s.Indexed) (htouches : s'.touches = s.touches)
    (hindex : s'.touchedBySession = s.touchedBySession) (hremovals : s'.removals = s.removals)
    (hindexing : ∀ touch, s.monitor = .indexing touch → s'.monitor = .indexing touch)
    (hstoring : ∀ index, s'.monitor = .storing index → s.monitor = .storing index) :
    s'.Indexed := by
  constructor
  · intro path access haccess
    rw [htouches] at haccess
    rcases h.accounts path access haccess with hpaths | ⟨touch, htouch, hsession⟩ | hremoval
    · exact .inl (hindex ▸ hpaths)
    · exact .inr (.inl ⟨touch, hindexing touch htouch, hsession⟩)
    · exact .inr (.inr (hremovals ▸ hremoval))
  · intro index hmonitor path access haccess
    rw [htouches] at haccess
    exact h.storing index (hstoring index hmonitor) path access haccess

/-- Fewer accesses, and the removals that are left account for those. -/
lemma retain {keep : String → FileAccess → Bool} (h : s.Indexed)
    (htouches : s'.touches = s.touches.retain keep)
    (hindex : s'.touchedBySession = s.touchedBySession)
    (hindexing : ∀ touch, s.monitor = .indexing touch → s'.monitor = .indexing touch)
    (hstoring : ∀ index, s'.monitor = .storing index →
      s.monitor = .storing index ∨ index = .rebuild s'.touches)
    (hremovals : ∀ path access, keep path access → ∀ removal ∈ s.removals,
      removal.Covers access.sessionId path → removal ∈ s'.removals) : s'.Indexed := by
  constructor
  · intro path access haccess
    rw [htouches, Touches.accesses_retain, List.mem_filter] at haccess
    obtain ⟨haccess, hkeep⟩ := haccess
    rcases h.accounts path access haccess with hpaths | ⟨touch, htouch, hsession⟩ |
      ⟨removal, hremoval, hcovers⟩
    · exact .inl (hindex ▸ hpaths)
    · exact .inr (.inl ⟨touch, hindexing touch htouch, hsession⟩)
    · exact .inr (.inr ⟨removal, hremovals path access hkeep removal hremoval hcovers, hcovers⟩)
  · intro index hmonitor path access haccess
    rcases hstoring index hmonitor with hmonitor | rfl
    · rw [htouches, Touches.accesses_retain, List.mem_filter] at haccess
      exact h.storing index hmonitor path access haccess.1
    · exact Index.mem_paths_rebuild haccess

lemma check (h : s.Indexed) (hmonitor : s.monitor = .checking) (now : Nat) :
    (s.check now).Indexed := by
  have hindexing (touch : FileTouch) : s.monitor ≠ .indexing touch := by simp [hmonitor]
  unfold State.check
  split_ifs with hlong
  · refine h.retain rfl rfl (fun touch htouch => absurd htouch (hindexing touch)) ?_
      fun _ _ _ removal hremoval _ => hremoval
    rintro index ⟨⟩
    exact .inr rfl
  · exact h.of_frame rfl rfl rfl (fun touch htouch => absurd htouch (hindexing touch)) (by simp)

lemma store {index : Index} (h : s.Indexed) (hmonitor : s.monitor = .storing index) (now : Nat) :
    (s.store index now).Indexed := by
  constructor
  · intro path access haccess
    exact .inl (h.storing index hmonitor path access haccess)
  · intro index' hmonitor'
    cases hmonitor'

lemma receive (h : s.Indexed) (hmonitor : s.monitor = .receiving) (now : Nat) :
    (s.receive touch now).Indexed := by
  constructor
  · intro path access haccess
    rw [State.receive, Touches.accesses_record, List.mem_append] at haccess
    rcases haccess with haccess | haccess
    · rcases h.accounts path access haccess with hpaths | ⟨touch', htouch', -⟩ | hremoval
      · exact .inl hpaths
      · rw [hmonitor] at htouch'
        cases htouch'
      · exact .inr (.inr hremoval)
    · split_ifs at haccess with hpath
      · obtain rfl := List.mem_singleton.mp haccess
        exact .inr (.inl ⟨touch, rfl, rfl, hpath⟩)
      · cases haccess
  · intro index hmonitor'
    cases hmonitor'

lemma index (h : s.Indexed) (hmonitor : s.monitor = .indexing touch) : (s.index touch).Indexed := by
  constructor
  · intro path access haccess
    rcases h.accounts path access haccess with hpaths | ⟨touch', htouch', hsession, hpath⟩ |
      hremoval
    · exact .inl (Index.mem_paths_add.mpr (.inr hpaths))
    · obtain rfl := Monitor.indexing.inj (hmonitor.symm.trans htouch')
      exact .inl (Index.mem_paths_add.mpr (.inl ⟨hsession.symm, hpath.symm⟩))
    · exact .inr (.inr hremoval)
  · intro index hmonitor'
    cases hmonitor'

lemma beginRemoval (h : s.Indexed) (session : String) : (s.beginRemoval session).Indexed := by
  constructor
  · intro path access haccess
    rcases h.accounts path access haccess with hpaths | hindexing | ⟨removal, hremoval, hcovers⟩
    · by_cases hsession : access.sessionId = session
      · refine .inr (.inr ⟨_, List.mem_append_right _ (List.mem_singleton_self _),
          hsession.symm, ?_⟩)
        intro paths hget
        have hget : SortedMap.get session s.touchedBySession = some paths := hget
        rw [hsession, Index.paths, hget] at hpaths
        exact hpaths
      · left
        rw [State.beginRemoval, Index.paths_erase_of_ne hsession]
        exact hpaths
    · exact .inr (.inl hindexing)
    · exact .inr (.inr ⟨removal, List.mem_append_left _ hremoval, hcovers⟩)
  · intro index hmonitor
    exact h.storing index hmonitor

lemma finishRemoval {i : Nat} {removal : Removal} (h : s.Indexed)
    (hremoval : s.removals[i]? = some removal) : (s.finishRemoval i removal).Indexed := by
  refine h.retain rfl rfl (fun _ h => h) (fun _ h => .inl h) ?_
  intro path access hkept other hother hcovers
  exact mem_removals_finishRemoval hremoval hother hcovers hkept

end State.Indexed

/-- What each step does, and where the monitor is before it. -/
lemma step_cases (h : step s i = some s') :
    (∃ now, i = .check now ∧ s.monitor = .checking ∧ s' = s.check now) ∨
    (∃ now index, i = .store now ∧ s.monitor = .storing index ∧ s' = s.store index now) ∨
    (∃ touch now, i = .receive touch now ∧ s.monitor = .receiving ∧ s' = s.receive touch now) ∨
    (i = .skip ∧ s.monitor = .receiving ∧ s' = { s with monitor := .checking }) ∨
    (∃ touch, i = .index ∧ s.monitor = .indexing touch ∧ s' = s.index touch) ∨
    (∃ touch, i = .seek ∧ s.monitor = .seeking touch ∧ s' = s.seek touch) ∨
    (∃ touch peers, i = .lookUp ∧ s.monitor = .lookingUp touch peers ∧
      s' = s.lookUp touch peers) ∨
    (∃ touch previous, i = .alert ∧ s.monitor = .alerting touch previous ∧
      s' = s.alert touch previous) ∨
    (∃ session, i = .beginRemoval session ∧ s' = s.beginRemoval session) ∨
    (∃ k removal, i = .finishRemoval k ∧ s.removals[k]? = some removal ∧
      s' = s.finishRemoval k removal) ∨
    (∃ tables, i = .setTables tables ∧ s' = { s with tables := tables }) := by
  cases i with
  | beginRemoval session => simp_all [step]
  | finishRemoval k => grind [step]
  | setTables tables => simp_all [step]
  | check | store | receive | skip | index | seek | lookUp | alert =>
    rw [step] at h
    split at h <;> simp_all

/-- A look-up moves the monitor and nothing else. -/
lemma State.lookUp_eq (peers : Finset String) : ∃ monitor,
    s.lookUp touch peers = { s with monitor := monitor } ∧
      (monitor = .checking ∨ monitor = .panicked ∨ touch.op.isModification ∧
        monitor = .alerting touch
          (latestPeerTouches (s.touches.accesses touch.path) touch.sessionId peers)) := by
  unfold State.lookUp
  split_ifs with hmodification
  · exact ⟨.checking, rfl, .inl rfl⟩
  · exact ⟨.panicked, rfl, .inr (.inl rfl)⟩
  · split
    next => exact ⟨.checking, rfl, .inl rfl⟩
    next => exact ⟨.alerting touch _, rfl, .inr (.inr ⟨by simpa using hmodification, rfl⟩)⟩

/-- Alerts move the monitor and are sent. -/
lemma State.alert_eq (previous : List FileAccess) : ∃ monitor sent,
    s.alert touch previous = { s with monitor := monitor, alerts := s.alerts ++ sent } ∧
      (monitor = .panicked ∧ sent = alertsToCurrent s.tables touch previous ∨
        monitor = .checking ∧ sent = alertsToCurrent s.tables touch previous ++
          alertsToPrevious s.tables touch previous) := by
  unfold State.alert
  split_ifs
  · exact ⟨.panicked, _, rfl, .inl ⟨rfl, rfl⟩⟩
  · exact ⟨.checking, _, rfl, .inr ⟨rfl, rfl⟩⟩

lemma State.Indexed.step (h : s.Indexed) (hstep : step s i = some s') : s'.Indexed := by
  obtain ⟨now, -, hmonitor, rfl⟩ | ⟨now, index, -, hmonitor, rfl⟩ |
    ⟨touch, now, -, hmonitor, rfl⟩ | ⟨-, hmonitor, rfl⟩ | ⟨touch, -, hmonitor, rfl⟩ |
    ⟨touch, -, hmonitor, rfl⟩ | ⟨touch, peers, -, hmonitor, rfl⟩ |
    ⟨touch, previous, -, hmonitor, rfl⟩ | ⟨session, -, rfl⟩ | ⟨k, removal, -, hremoval, rfl⟩ |
    ⟨tables, -, rfl⟩ := step_cases hstep
  · exact h.check hmonitor now
  · exact h.store hmonitor now
  · exact h.receive hmonitor now
  · exact h.of_frame rfl rfl rfl (by simp [hmonitor]) (by simp)
  · exact h.index hmonitor
  · exact h.of_frame rfl rfl rfl (by simp [hmonitor]) (by rintro _ ⟨⟩)
  · obtain ⟨monitor, heq, hnext⟩ := s.lookUp_eq peers
    rw [heq]
    refine h.of_frame rfl rfl rfl (by simp [hmonitor]) ?_
    rcases hnext with rfl | rfl | ⟨-, rfl⟩ <;> simp
  · obtain ⟨monitor, sent, heq, hnext⟩ := s.alert_eq previous
    rw [heq]
    refine h.of_frame rfl rfl rfl (by simp [hmonitor]) ?_
    rcases hnext with ⟨rfl, -⟩ | ⟨rfl, -⟩ <;> simp
  · exact h.beginRemoval session
  · exact h.finishRemoval hremoval
  · exact h.of_frame rfl rfl rfl (fun _ h => h) (fun _ h => h)

lemma indexed_start (tables : SwarmTables) (now : Nat) : (start tables now).Indexed := by
  constructor
  · intro path access haccess
    cases haccess
  · intro index hmonitor
    cases hmonitor

/-- In every interleaving the index lists what a session has touched, save for what one of the tasks
still holds. -/
theorem accounts_of_exec {tables : SwarmTables} {now : Nat}
    (hs : exec step (start tables now) is = some s) (haccess : access ∈ s.touches.accesses path) :
    s.Accounts access.sessionId path :=
  (exec_invariant (fun _ _ _ h hstep => h.step hstep) (indexed_start tables now) hs).accounts
    path access haccess

def noTables : SwarmTables where
  members _ := none
  swarmsById _ := ∅
  coordinators _ := none
  plans _ := none

def sampleTouch (session path : String) : FileTouch where
  sessionId := session
  path := path
  op := .edit
  summary := some "edited lines 3-5 (1 occurrence)"
  detail := none

theorem accounts_sampleTouch :
    (((start noTables 0).check 0).receive (sampleTouch "session_fox" "README.md") 1).Accounts
      "session_fox" "README.md" :=
  accounts_of_exec
    (show exec step (start noTables 0)
      [.check 0, .receive (sampleTouch "session_fox" "README.md") 1] = some _ from rfl)
    (show (sampleTouch "session_fox" "README.md").access 1 ∈ _ by decide)

/-! ### Sessions that leave -/

/-- Every access of the session is about to be removed, save for one path. -/
def State.Leaves (s : State) (session : String) (except : String → Prop) : Prop :=
  ∀ path, ∀ access ∈ s.touches.accesses path, access.sessionId = session → ¬ except path →
    ∃ removal ∈ s.removals, removal.Covers session path

variable {except : String → Prop}

lemma State.Indexed.leaves (h : s.Indexed) :
    (s.beginRemoval session).Leaves session (s.IsIndexing session) := by
  rintro path access haccess rfl hindexing
  rcases (h.beginRemoval access.sessionId).accounts path access haccess with
    hpaths | hindexing' | hremoval
  · rw [State.beginRemoval, Index.paths, SortedMap.get_erase, if_pos rfl] at hpaths
    cases hpaths
  · exact absurd hindexing' hindexing
  · exact hremoval

lemma State.Leaves.step (h : s.Leaves session except) (hstep : step s i = some s')
    (hi : ∀ touch now, i = .receive touch now → touch.sessionId ≠ session) :
    s'.Leaves session except := by
  intro path access haccess hsession hexcept
  have hfewer (hfewer : access ∈ s.touches.accesses path) (hremovals : s'.removals = s.removals) :
      ∃ removal ∈ s'.removals, removal.Covers session path := by
    rw [hremovals]
    exact h path access hfewer hsession hexcept
  obtain ⟨now, -, hmonitor, rfl⟩ | ⟨now, index, -, hmonitor, rfl⟩ |
    ⟨touch, now, hmove, hmonitor, rfl⟩ | ⟨-, hmonitor, rfl⟩ | ⟨touch, -, hmonitor, rfl⟩ |
    ⟨touch, -, hmonitor, rfl⟩ | ⟨touch, peers, -, hmonitor, rfl⟩ |
    ⟨touch, previous, -, hmonitor, rfl⟩ | ⟨session', -, rfl⟩ | ⟨k, removal, -, hremoval, rfl⟩ |
    ⟨tables, -, rfl⟩ := step_cases hstep
  · unfold State.check at haccess hfewer ⊢
    split_ifs at haccess hfewer ⊢ with hlong
    · rw [Touches.accesses_retain, List.mem_filter] at haccess
      exact hfewer haccess.1 rfl
    · exact hfewer haccess rfl
  · exact hfewer haccess rfl
  · rw [State.receive, Touches.accesses_record, List.mem_append] at haccess
    rcases haccess with haccess | haccess
    · exact hfewer haccess rfl
    · split_ifs at haccess
      · obtain rfl := List.mem_singleton.mp haccess
        exact absurd hsession (hi touch now hmove)
      · cases haccess
  · exact hfewer haccess rfl
  · exact hfewer haccess rfl
  · exact hfewer haccess rfl
  · obtain ⟨monitor, heq, -⟩ := s.lookUp_eq peers
    rw [heq] at haccess hfewer ⊢
    exact hfewer haccess rfl
  · obtain ⟨monitor, sent, heq, -⟩ := s.alert_eq previous
    rw [heq] at haccess hfewer ⊢
    exact hfewer haccess rfl
  · obtain ⟨removal, hremoval, hcovers⟩ := h path access haccess hsession hexcept
    exact ⟨removal, List.mem_append_left _ hremoval, hcovers⟩
  · rw [State.finishRemoval, Touches.accesses_retain, List.mem_filter] at haccess
    obtain ⟨haccess, hkept⟩ := haccess
    obtain ⟨other, hother, hcovers⟩ := h path access haccess hsession hexcept
    exact ⟨other, mem_removals_finishRemoval hremoval hother (hsession ▸ hcovers) hkept, hcovers⟩
  · exact hfewer haccess rfl

/-- When a session has left, and has touched nothing since, none of its touches is left, save that
the touch which was next to be indexed may stay. -/
theorem isIndexing_of_left {tables : SwarmTables} {now : Nat}
    (hs : exec step (start tables now) is = some s)
    (ht : exec step (s.beginRemoval session) js = some t)
    (hjs : ∀ touch now, .receive touch now ∈ js → touch.sessionId ≠ session)
    (hdone : ∀ removal ∈ t.removals, removal.session ≠ session)
    (haccess : access ∈ t.touches.accesses path) (hsession : access.sessionId = session) :
    s.IsIndexing session path := by
  have hindexed : s.Indexed :=
    exec_invariant (fun _ _ _ h hstep => h.step hstep) (indexed_start tables now) hs
  have hguarded : Guarded step (fun _ i => i ∈ js) (s.beginRemoval session) js :=
    guarded_of_forall_mem fun i hi _ => hi
  have hleaves : t.Leaves session (s.IsIndexing session) := by
    refine exec_invariant_of_guarded (I := fun u => u.Leaves session (s.IsIndexing session)) ?_
      hguarded hindexed.leaves ht
    intro u i u' hu hi hstep
    refine hu.step hstep ?_
    rintro touch now rfl
    exact hjs touch now hi
  by_contra hindexing
  obtain ⟨removal, hremoval, hcovers⟩ := hleaves path access haccess hsession hindexing
  exact hdone removal hremoval hcovers.1

def sampleMoves : List Move :=
  [.check 0, .receive (sampleTouch "session_fox" "README.md") 1, .index, .seek, .lookUp, .check 2,
    .receive (sampleTouch "session_fox" "src/main.rs") 3]

/-- A touch that is not yet indexed stays when its session leaves. -/
theorem isIndexing_sampleMoves : ∃ s, exec step (start noTables 0) sampleMoves = some s ∧
    s.IsIndexing "session_fox" "src/main.rs" := by
  refine ⟨_, rfl, isIndexing_of_left
    (show exec step (start noTables 0) sampleMoves = some _ from rfl)
    (show exec step (State.beginRemoval _ "session_fox") [.finishRemoval 0, .index] = some _
      from rfl) ?_ ?_
    (show (sampleTouch "session_fox" "src/main.rs").access 3 ∈ _ by decide) rfl⟩
  · simp
  · exact List.forall_mem_nil fun removal : Removal => removal.session ≠ "session_fox"

end Jcode.FileActivity
