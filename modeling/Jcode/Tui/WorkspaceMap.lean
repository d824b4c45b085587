import Jcode.Foundation.Run
import Jcode.Foundation.SortedMap
import Mathlib.Data.List.Sort
import Mathlib.Data.List.Nodup
import Mathlib.Algebra.Group.Int.Defs

/-!
# The workspace map

`WorkspaceMapModel` (`jcode-tui-workspace`): sessions in rows, one row for each workspace, and the
workspace that is current. A workspace can be current without a row.
-/

namespace Jcode

open Schedule

inductive WorkspaceSessionVisualState
  | idle
  | running
  | completed
  | waiting
  | error
  | detached
  deriving DecidableEq

structure WorkspaceSessionTile where
  sessionId : String
  state : WorkspaceSessionVisualState
  deriving DecidableEq

structure WorkspaceRow where
  sessions : List WorkspaceSessionTile := []
  lastFocused : Option Nat := none
  deriving DecidableEq

namespace WorkspaceRow

variable (row : WorkspaceRow)

def focusedIndex : Option Nat :=
  (row.lastFocused.filter fun idx => idx < row.sessions.length).or
    (if row.sessions = [] then none else some 0)

def focus (index : Nat) : WorkspaceRow × Bool :=
  if index < row.sessions.length then ({ row with lastFocused := some index }, true)
  else (row, false)

def insertRightOfFocus (tile : WorkspaceSessionTile) : WorkspaceRow × Nat :=
  let insertAt := match row.focusedIndex with
    | some idx => min (idx + 1) row.sessions.length
    | none => row.sessions.length
  ({ sessions := row.sessions.insertIdx insertAt tile, lastFocused := some insertAt }, insertAt)

def moveFocusLeft : WorkspaceRow × Bool :=
  match row.focusedIndex with
  | none => (row, false)
  | some current =>
    if current = 0 then (row, false) else ({ row with lastFocused := some (current - 1) }, true)

def moveFocusRight : WorkspaceRow × Bool :=
  match row.focusedIndex with
  | none => (row, false)
  | some current =>
    if row.sessions.length ≤ current + 1 then (row, false)
    else ({ row with lastFocused := some (current + 1) }, true)

end WorkspaceRow

/-- The rows are a `BTreeMap`, the entries of which are in the order of their keys. -/
structure WorkspaceMapModel where
  rows : List (Int × WorkspaceRow)
  currentWorkspace : Int
  sorted : SortedMap.Sorted rows

structure VisibleWorkspaceRow where
  workspace : Int
  isCurrent : Bool
  focusedIndex : Option Nat
  sessions : List WorkspaceSessionTile
  deriving DecidableEq

namespace WorkspaceMapModel

def new : WorkspaceMapModel where
  rows := []
  currentWorkspace := 0
  sorted := .nil

variable (m : WorkspaceMapModel)

def row (workspace : Int) : Option WorkspaceRow := SortedMap.get workspace m.rows

/-- `row_mut` with what is done with the row, which is made where it is missing. -/
def rowMut {α : Type} (workspace : Int) (change : WorkspaceRow → WorkspaceRow × α) :
    WorkspaceMapModel × α :=
  let changed := change ((m.row workspace).getD {})
  ({ m with
      rows := SortedMap.insert workspace changed.1 m.rows
      sorted := m.sorted.insert }, changed.2)

/-- `rows.entry(workspace).or_default()` for the workspace that becomes current. -/
def setCurrentWorkspace (workspace : Int) : WorkspaceMapModel :=
  ({ m with currentWorkspace := workspace }.rowMut workspace fun row => (row, ())).1

def currentRowMut {α : Type} (change : WorkspaceRow → WorkspaceRow × α) : WorkspaceMapModel × α :=
  m.rowMut m.currentWorkspace change

def addSessionToCurrentWorkspace (tile : WorkspaceSessionTile) : WorkspaceMapModel × Int × Nat :=
  let (m', index) := m.currentRowMut (·.insertRightOfFocus tile)
  (m', m.currentWorkspace, index)

def focusSessionInWorkspace (workspace : Int) (index : Nat) : WorkspaceMapModel × Bool :=
  m.rowMut workspace (·.focus index)

def locateSession (sessionId : String) : Option (Int × Nat) :=
  m.rows.findSome? fun (workspace, row) =>
    (row.sessions.findIdx? fun tile => tile.sessionId = sessionId).map fun index =>
      (workspace, index)

def focusSessionById (sessionId : String) : WorkspaceMapModel × Bool :=
  match m.locateSession sessionId with
  | none => (m, false)
  | some (workspace, index) =>
    { m with currentWorkspace := workspace }.rowMut workspace (·.focus index)

def setRowSessions (workspace : Int) (sessions : List WorkspaceSessionTile)
    (focusedIndex : Option Nat) : WorkspaceMapModel :=
  (m.rowMut workspace fun _ =>
    (⟨sessions, focusedIndex.filter fun idx => idx < sessions.length⟩, ())).1

def insertSessionInWorkspace (workspace : Int) (tile : WorkspaceSessionTile) :
    WorkspaceMapModel × Nat :=
  { m with currentWorkspace := workspace }.rowMut workspace (·.insertRightOfFocus tile)

def moveLeft : WorkspaceMapModel × Bool := m.currentRowMut WorkspaceRow.moveFocusLeft

def moveRight : WorkspaceMapModel × Bool := m.currentRowMut WorkspaceRow.moveFocusRight

/-- Nothing on overflow of an `i32`. -/
def moveUp : Option WorkspaceMapModel :=
  if m.currentWorkspace + 1 < 2 ^ 31 then some (m.setCurrentWorkspace (m.currentWorkspace + 1))
  else none

def moveDown : Option WorkspaceMapModel :=
  if -2 ^ 31 ≤ m.currentWorkspace - 1 then some (m.setCurrentWorkspace (m.currentWorkspace - 1))
  else none

/-! ### Visible rows -/

/-- The window of `max_rows` around a position: where it starts and ends. -/
def windowAround (position maxRows length : Nat) : Nat × Nat :=
  let half := maxRows / 2
  let start := position - half
  let stop := min (start + maxRows) length
  (if stop - start < maxRows then stop - maxRows else start, stop)

/-- The rows that are not left out. -/
def shownWorkspaces : List Int :=
  m.rows.filterMap fun (workspace, row) =>
    if workspace = m.currentWorkspace ∨ row.sessions ≠ [] then some workspace else none

/-- The workspaces that are listed, from the top. -/
def orderedWorkspaces : List Int :=
  let ordered := m.shownWorkspaces.mergeSort fun a b => b ≤ a
  if ordered = [] then [m.currentWorkspace] else ordered

def visibleRow (workspace : Int) : VisibleWorkspaceRow :=
  let row := (m.row workspace).getD {}
  { workspace
    isCurrent := workspace = m.currentWorkspace
    focusedIndex := row.focusedIndex
    sessions := row.sessions }

def visibleRows (maxRows : Nat) : List VisibleWorkspaceRow :=
  if maxRows = 0 then []
  else
    let ordered := m.orderedWorkspaces
    let currentPos := (ordered.findIdx? (· = m.currentWorkspace)).getD 0
    let (start, stop) := windowAround currentPos maxRows ordered.length
    ((ordered.take stop).drop start).map m.visibleRow

/-! ### What is shown -/

def IsPopulated (workspace : Int) : Prop := ∃ row ∈ m.row workspace, row.sessions ≠ []

/-- The populated workspaces and the current one, from the top. -/
structure ListsWorkspaces (listed : List Int) : Prop where
  descending : listed.Pairwise (· > ·)
  mem_iff : ∀ workspace, workspace ∈ listed ↔
    workspace = m.currentWorkspace ∨ m.IsPopulated workspace

/-- What is visible is a window of these workspaces with the current one in it. -/
def ShowsCurrent (maxRows : Nat) : Prop :=
  ∃ listed before after, m.ListsWorkspaces listed ∧
    listed = before ++ (m.visibleRows maxRows).map VisibleWorkspaceRow.workspace ++ after ∧
    (m.visibleRows maxRows).length = min maxRows listed.length ∧
    ((m.visibleRows maxRows).map VisibleWorkspaceRow.workspace).count m.currentWorkspace = 1 ∧
    ∀ row ∈ m.visibleRows maxRows, row.isCurrent = true ↔ row.workspace = m.currentWorkspace

/-- The current workspace has a row, or there is nothing to be shown in its place. -/
def Anchored : Prop :=
  (m.row m.currentWorkspace).isSome ∨ ∀ workspace, ¬ m.IsPopulated workspace

variable {m} {workspace : Int} {maxRows position length : Nat}

lemma windowAround_spec (hposition : position < length) (hmax : 1 ≤ maxRows) :
    (windowAround position maxRows length).1 ≤ position ∧
      position < (windowAround position maxRows length).2 ∧
      (windowAround position maxRows length).2 ≤ length ∧
      (windowAround position maxRows length).2 - (windowAround position maxRows length).1 =
        min maxRows length := by
  unfold windowAround
  dsimp only
  split_ifs <;> omega

lemma mem_rows_iff {row : WorkspaceRow} : (workspace, row) ∈ m.rows ↔ m.row workspace = some row :=
  ⟨m.sorted.get_of_mem, SortedMap.mem_of_get⟩

lemma mem_shownWorkspaces : workspace ∈ m.shownWorkspaces ↔
    (workspace = m.currentWorkspace ∧ (m.row workspace).isSome) ∨ m.IsPopulated workspace := by
  simp only [shownWorkspaces, List.mem_filterMap, Prod.exists, Option.ite_none_right_eq_some,
    Option.some.injEq, mem_rows_iff, IsPopulated, Option.mem_def]
  constructor
  · rintro ⟨workspace, row, hrow, hshown | hshown, rfl⟩
    · exact .inl ⟨hshown, by simp [hrow]⟩
    · exact .inr ⟨row, hrow, hshown⟩
  · rintro (⟨hcurrent, hsome⟩ | ⟨row, hrow, hsessions⟩)
    · obtain ⟨row, hrow⟩ := Option.isSome_iff_exists.mp hsome
      exact ⟨workspace, row, hrow, .inl hcurrent, rfl⟩
    · exact ⟨workspace, row, hrow, .inr hsessions, rfl⟩

lemma pairwise_shownWorkspaces (m : WorkspaceMapModel) : m.shownWorkspaces.Pairwise (· < ·) := by
  apply List.Pairwise.filterMap _ _ m.sorted
  rintro ⟨a, rowA⟩ ⟨b, rowB⟩ hlt a' ha b' hb
  simp only [Option.ite_none_right_eq_some, Option.some.injEq] at ha hb
  rw [← ha.2, ← hb.2]
  exact hlt

lemma descending_mergeSort {l : List Int} (h : l.Pairwise (· < ·)) :
    (l.mergeSort fun a b => b ≤ a).Pairwise (· > ·) := by
  have hsorted : (l.mergeSort fun a b => b ≤ a).Pairwise fun a b => decide (b ≤ a) = true := by
    apply List.pairwise_mergeSort
    · intro a b c hab hbc
      simp only [decide_eq_true_eq] at hab hbc ⊢
      omega
    · intro a b
      simp only [Bool.or_eq_true, decide_eq_true_eq]
      omega
  have hnodup : (l.mergeSort fun a b => b ≤ a).Nodup :=
    (List.mergeSort_perm l _).nodup_iff.mpr (h.imp fun hab => hab.ne)
  apply (hsorted.and hnodup).imp
  rintro a b ⟨hle, hne⟩
  exact lt_of_le_of_ne (of_decide_eq_true hle) hne.symm

lemma orderedWorkspaces_of_ne_nil (h : m.shownWorkspaces ≠ []) :
    m.orderedWorkspaces = m.shownWorkspaces.mergeSort fun a b => b ≤ a := by
  apply if_neg
  intro hnil
  have hperm := List.mergeSort_perm m.shownWorkspaces fun a b => b ≤ a
  rw [hnil] at hperm
  exact h hperm.nil_eq.symm

lemma orderedWorkspaces_of_nil (h : m.shownWorkspaces = []) :
    m.orderedWorkspaces = [m.currentWorkspace] := by
  simp [orderedWorkspaces, h]

lemma descending_orderedWorkspaces (m : WorkspaceMapModel) :
    m.orderedWorkspaces.Pairwise (· > ·) := by
  by_cases h : m.shownWorkspaces = []
  · rw [orderedWorkspaces_of_nil h]
    exact List.pairwise_singleton _ _
  · rw [orderedWorkspaces_of_ne_nil h]
    exact descending_mergeSort m.pairwise_shownWorkspaces

/-- The list is right as long as the current workspace has a row or nothing is populated. -/
lemma Anchored.listsWorkspaces (h : m.Anchored) : m.ListsWorkspaces m.orderedWorkspaces where
  descending := m.descending_orderedWorkspaces
  mem_iff workspace := by
    by_cases hnil : m.shownWorkspaces = []
    · have hnone : ¬ m.IsPopulated workspace := by
        intro hpopulated
        have hmem := mem_shownWorkspaces.mpr (.inr hpopulated)
        rw [hnil] at hmem
        cases hmem
      rw [orderedWorkspaces_of_nil hnil, List.mem_singleton]
      exact ⟨.inl, fun h => h.resolve_right hnone⟩
    · have hrow : (m.row m.currentWorkspace).isSome := by
        rcases h with h | hnone
        · exact h
        · obtain ⟨shown, hshown⟩ := List.exists_mem_of_ne_nil _ hnil
          rcases mem_shownWorkspaces.mp hshown with ⟨heq, hsome⟩ | hpopulated
          · rwa [← heq]
          · exact absurd hpopulated (hnone shown)
      rw [orderedWorkspaces_of_ne_nil hnil, List.mem_mergeSort, mem_shownWorkspaces]
      constructor
      · rintro (⟨heq, -⟩ | hpopulated)
        · exact .inl heq
        · exact .inr hpopulated
      · rintro (rfl | hpopulated)
        · exact .inl ⟨rfl, hrow⟩
        · exact .inr hpopulated

/-- Where a workspace is populated and the current one has no row, the current one is not listed. -/
lemma current_notMem_of_not_anchored (h : ¬ m.Anchored) :
    m.currentWorkspace ∉ m.orderedWorkspaces := by
  rw [Anchored, not_or, not_forall] at h
  obtain ⟨hrow, shown, hshown⟩ := h
  have hmem : shown ∈ m.shownWorkspaces := mem_shownWorkspaces.mpr (.inr (not_not.mp hshown))
  rw [orderedWorkspaces_of_ne_nil (List.ne_nil_of_mem hmem), List.mem_mergeSort,
    mem_shownWorkspaces]
  rintro (⟨-, hsome⟩ | ⟨row, hget, -⟩)
  · exact hrow hsome
  · exact hrow (by rw [Option.mem_def.mp hget]; rfl)

/-! ### The window -/

lemma map_workspace_visibleRows (hmax : 1 ≤ maxRows) :
    (m.visibleRows maxRows).map VisibleWorkspaceRow.workspace =
      (m.orderedWorkspaces.take (windowAround
          ((m.orderedWorkspaces.findIdx? (· = m.currentWorkspace)).getD 0) maxRows
          m.orderedWorkspaces.length).2).drop (windowAround
        ((m.orderedWorkspaces.findIdx? (· = m.currentWorkspace)).getD 0) maxRows
        m.orderedWorkspaces.length).1 := by
  have hne : maxRows ≠ 0 := Nat.one_le_iff_ne_zero.mp hmax
  rw [visibleRows, if_neg hne]
  simp only [List.map_map]
  exact List.map_id' _

lemma isCurrent_iff {row : VisibleWorkspaceRow} (h : row ∈ m.visibleRows maxRows) :
    row.isCurrent = true ↔ row.workspace = m.currentWorkspace := by
  unfold visibleRows at h
  split_ifs at h with hmax
  · cases h
  · obtain ⟨workspace, -, rfl⟩ := List.mem_map.mp h
    simp [visibleRow]

lemma mem_take_drop {l : List Int} {start stop : Nat} (h : position < l.length)
    (hstart : start ≤ position) (hstop : position < stop) :
    l[position] ∈ (l.take stop).drop start := by
  rw [List.mem_iff_getElem]
  refine ⟨position - start, ?_, ?_⟩
  · rw [List.length_drop, List.length_take]
    omega
  · simp [Nat.add_sub_cancel' hstart]

lemma Anchored.showsCurrent (h : m.Anchored) (hmax : 1 ≤ maxRows) : m.ShowsCurrent maxRows := by
  have hlists := h.listsWorkspaces
  have hcurrent : m.currentWorkspace ∈ m.orderedWorkspaces := (hlists.mem_iff _).mpr (.inl rfl)
  have hfound : (m.orderedWorkspaces.findIdx? (· = m.currentWorkspace)).isSome := by
    rw [List.findIdx?_isSome, List.any_eq_true]
    exact ⟨m.currentWorkspace, hcurrent, by simp⟩
  obtain ⟨position, hposition⟩ := Option.isSome_iff_exists.mp hfound
  obtain ⟨hlt, hget, -⟩ := List.findIdx?_eq_some_iff_getElem.mp hposition
  have hget : m.orderedWorkspaces[position] = m.currentWorkspace := of_decide_eq_true hget
  obtain ⟨hstart, hstop, hle, hlength⟩ := windowAround_spec hlt hmax
  have hvisible := map_workspace_visibleRows (m := m) hmax
  rw [hposition, Option.getD_some] at hvisible
  set start := (windowAround position maxRows m.orderedWorkspaces.length).1
  set stop := (windowAround position maxRows m.orderedWorkspaces.length).2
  refine ⟨m.orderedWorkspaces, m.orderedWorkspaces.take start, m.orderedWorkspaces.drop stop,
    hlists, ?_, ?_, ?_, fun row hrow => isCurrent_iff hrow⟩
  · have htake : m.orderedWorkspaces.take start = (m.orderedWorkspaces.take stop).take start := by
      rw [List.take_take, min_eq_left (hstart.trans hstop.le)]
    rw [hvisible, htake, List.take_append_drop, List.take_append_drop]
  · rw [← List.length_map VisibleWorkspaceRow.workspace, hvisible, List.length_drop,
      List.length_take, min_eq_left hle]
    exact hlength
  · rw [hvisible]
    have hnodup : m.orderedWorkspaces.Nodup := hlists.descending.imp fun hgt => hgt.ne'
    apply List.count_eq_one_of_mem
    · exact hnodup.sublist ((List.drop_sublist _ _).trans (List.take_sublist _ _))
    · rw [← hget]
      exact mem_take_drop hlt hstart hstop

/-- What is visible is right exactly while the current workspace is anchored. -/
lemma showsCurrent_iff (hmax : 1 ≤ maxRows) : m.ShowsCurrent maxRows ↔ m.Anchored := by
  constructor
  · rintro ⟨-, -, -, -, -, -, hcount, -⟩
    by_contra h
    have hmem : m.currentWorkspace ∈
        (m.visibleRows maxRows).map VisibleWorkspaceRow.workspace := by
      rw [← List.count_pos_iff, hcount]
      exact Nat.one_pos
    rw [map_workspace_visibleRows hmax] at hmem
    exact current_notMem_of_not_anchored h (List.mem_of_mem_take (List.mem_of_mem_drop hmem))
  · intro h
    exact h.showsCurrent hmax

/-! ### Sequences of calls -/

/-- The public calls that change a map. -/
inductive WorkspaceCall
  | setCurrentWorkspace (workspace : Int)
  | rowMut (workspace : Int) (change : WorkspaceRow → WorkspaceRow)
  | addSessionToCurrentWorkspace (tile : WorkspaceSessionTile)
  | focusSessionInWorkspace (workspace : Int) (index : Nat)
  | focusSessionById (sessionId : String)
  | setRowSessions (workspace : Int) (sessions : List WorkspaceSessionTile)
      (focusedIndex : Option Nat)
  | insertSessionInWorkspace (workspace : Int) (tile : WorkspaceSessionTile)
  | moveLeft
  | moveRight
  | moveUp
  | moveDown

def step (m : WorkspaceMapModel) : WorkspaceCall → Option WorkspaceMapModel
  | .setCurrentWorkspace workspace => some (m.setCurrentWorkspace workspace)
  | .rowMut workspace change => some (m.rowMut workspace fun row => (change row, ())).1
  | .addSessionToCurrentWorkspace tile => some (m.addSessionToCurrentWorkspace tile).1
  | .focusSessionInWorkspace workspace index => some (m.focusSessionInWorkspace workspace index).1
  | .focusSessionById sessionId => some (m.focusSessionById sessionId).1
  | .setRowSessions workspace sessions focusedIndex =>
    some (m.setRowSessions workspace sessions focusedIndex)
  | .insertSessionInWorkspace workspace tile => some (m.insertSessionInWorkspace workspace tile).1
  | .moveLeft => some m.moveLeft.1
  | .moveRight => some m.moveRight.1
  | .moveUp => m.moveUp
  | .moveDown => m.moveDown

/-- No call gives sessions to another workspace while the current one has no row. -/
def FillsAnchored (m : WorkspaceMapModel) (call : WorkspaceCall) : Prop :=
  (m.row m.currentWorkspace).isSome ∨
    match call with
    | .setRowSessions workspace sessions _ => workspace = m.currentWorkspace ∨ sessions = []
    | .rowMut workspace change =>
      workspace = m.currentWorkspace ∨ (change ((m.row workspace).getD {})).sessions = []
    | _ => True

variable {α : Type} {m' : WorkspaceMapModel} {call : WorkspaceCall}
  {change : WorkspaceRow → WorkspaceRow × α}

lemma row_rowMut (w : Int) : (m.rowMut workspace change).1.row w =
    if workspace = w then some (change ((m.row workspace).getD {})).1 else m.row w :=
  SortedMap.get_insert

@[simp] lemma currentWorkspace_rowMut :
    (m.rowMut workspace change).1.currentWorkspace = m.currentWorkspace := rfl

/-- A row that is changed is there. -/
lemma anchored_rowMut_self (h : m.currentWorkspace = workspace) :
    (m.rowMut workspace change).1.Anchored := by
  left
  rw [currentWorkspace_rowMut, row_rowMut, if_pos h.symm]
  rfl

/-- The row of any workspace is changed: that can only do harm while the current one has none. -/
lemma Anchored.rowMut_iff (h : m.Anchored) : (m.rowMut workspace change).1.Anchored ↔
    (m.row m.currentWorkspace).isSome ∨
      (workspace = m.currentWorkspace ∨ (change ((m.row workspace).getD {})).1.sessions = []) := by
  by_cases hself : workspace = m.currentWorkspace
  · exact iff_of_true (anchored_rowMut_self hself.symm) (.inr (.inl hself))
  · have hrow : (m.rowMut workspace change).1.row m.currentWorkspace = m.row m.currentWorkspace := by
      rw [row_rowMut, if_neg hself]
    rw [Anchored, currentWorkspace_rowMut, hrow]
    apply or_congr_right'
    intro hnone
    have hempty := h.resolve_left hnone
    constructor
    · intro hpopulated
      right
      by_contra hsessions
      exact hpopulated workspace ⟨_, (row_rowMut workspace).trans (if_pos rfl), hsessions⟩
    · rintro (hself' | hsessions) w ⟨row, hget, hne⟩
      · exact hself hself'
      · rw [Option.mem_def, row_rowMut] at hget
        split_ifs at hget with hw
        · obtain rfl := Option.some.inj hget
          exact hne hsessions
        · exact hempty w ⟨row, hget, hne⟩

lemma sessions_focus (row : WorkspaceRow) (index : Nat) :
    (row.focus index).1.sessions = row.sessions := by
  unfold WorkspaceRow.focus
  split_ifs <;> rfl

/-- A row is only focused: an empty one stays empty. -/
lemma Anchored.focusSessionInWorkspace (h : m.Anchored) (index : Nat) :
    (m.focusSessionInWorkspace workspace index).1.Anchored := by
  apply h.rowMut_iff.mpr
  rcases h with hrow | hempty
  · exact .inl hrow
  · right
    right
    rw [sessions_focus]
    cases hget : m.row workspace with
    | none => rfl
    | some row =>
      by_contra hne
      exact hempty workspace ⟨row, hget, hne⟩

lemma anchored_setCurrentWorkspace : (m.setCurrentWorkspace workspace).Anchored :=
  anchored_rowMut_self rfl

lemma Anchored.step_iff (h : m.Anchored) (hs : m.step call = some m') :
    m'.Anchored ↔ m.FillsAnchored call := by
  cases call with
  | rowMut workspace change =>
    cases hs
    exact h.rowMut_iff
  | setRowSessions workspace sessions focusedIndex =>
    cases hs
    exact h.rowMut_iff
  | focusSessionInWorkspace workspace index =>
    cases hs
    exact iff_of_true (h.focusSessionInWorkspace index) (.inr trivial)
  | focusSessionById sessionId =>
    cases hs
    refine iff_of_true ?_ (.inr trivial)
    unfold focusSessionById
    split
    · exact h
    · exact anchored_rowMut_self rfl
  | setCurrentWorkspace workspace =>
    cases hs
    exact iff_of_true anchored_setCurrentWorkspace (.inr trivial)
  | addSessionToCurrentWorkspace tile =>
    cases hs
    have hself : (m.rowMut m.currentWorkspace (·.insertRightOfFocus tile)).1.Anchored :=
      anchored_rowMut_self rfl
    exact iff_of_true hself (.inr trivial)
  | insertSessionInWorkspace | moveLeft | moveRight =>
    cases hs
    exact iff_of_true (anchored_rowMut_self rfl) (.inr trivial)
  | moveUp =>
    obtain ⟨-, hs⟩ := Option.ite_none_right_eq_some.mp hs
    cases hs
    exact iff_of_true anchored_setCurrentWorkspace (.inr trivial)
  | moveDown =>
    obtain ⟨-, hs⟩ := Option.ite_none_right_eq_some.mp hs
    cases hs
    exact iff_of_true anchored_setCurrentWorkspace (.inr trivial)

lemma anchored_new : new.Anchored := by
  right
  rintro workspace ⟨row, hrow, -⟩
  cases hrow

/-- In every sequence of calls on a new map without overflow: whatever the number of rows, the
current workspace is shown throughout if and only if no other workspace is given sessions while the
current one has no row. -/
theorem showsCurrent_always_iff {m : WorkspaceMapModel} {calls : List WorkspaceCall}
    (hrun : exec step new calls = some m) :
    Always step (fun m => ∀ maxRows ≥ 1, m.ShowsCurrent maxRows) new calls ↔
      Guarded step FillsAnchored new calls := by
  have hshows (m : WorkspaceMapModel) : (∀ maxRows ≥ 1, m.ShowsCurrent maxRows) ↔ m.Anchored :=
    ⟨fun h => (showsCurrent_iff le_rfl).mp (h 1 le_rfl), fun h _ hmax => h.showsCurrent hmax⟩
  simp only [hshows]
  refine always_iff_guarded (I := fun _ => True) (E := fun _ _ => True) (fun _ _ _ _ _ _ => trivial)
    ?_ ?_ trivial anchored_new (guarded_of_forall_mem fun _ _ _ => trivial) hrun
  · intro m call m' _ hanchored _ hfills hs
    exact (hanchored.step_iff hs).mpr hfills
  · intro m call m' _ hanchored _ hfills hs hanchored'
    exact hfills ((hanchored.step_iff hs).mp hanchored')

/-- Two sessions above the current workspace, which gets its row first. -/
def rowFirstCalls : List WorkspaceCall :=
  [.moveUp, .moveDown, .setRowSessions 1 [⟨"fox", .idle⟩, ⟨"owl", .idle⟩] none]

theorem showsCurrent_always_rowFirst :
    Always step (fun m => ∀ maxRows ≥ 1, m.ShowsCurrent maxRows) new rowFirstCalls := by
  have hrun : exec step new rowFirstCalls = some _ := rfl
  apply (showsCurrent_always_iff hrun).mpr
  apply Guarded.cons (.inr trivial) rfl
  apply Guarded.cons (.inr trivial) rfl
  exact Guarded.cons (.inl rfl) rfl trivial

/-- A session in another workspace of a new map: it alone is visible. -/
theorem not_showsCurrent :
    ¬ ∀ (calls : List WorkspaceCall) (m : WorkspaceMapModel) (maxRows : Nat),
      exec step new calls = some m → 1 ≤ maxRows → m.ShowsCurrent maxRows := by
  intro h
  obtain ⟨-, -, -, -, -, -, hcount, -⟩ :=
    h [.setRowSessions 5 [⟨"fox", .idle⟩] none] _ 3 rfl (by decide)
  revert hcount
  simp [visibleRows, orderedWorkspaces, shownWorkspaces, setRowSessions, rowMut, new, row,
    SortedMap.insert, windowAround, visibleRow]

end WorkspaceMapModel

end Jcode
