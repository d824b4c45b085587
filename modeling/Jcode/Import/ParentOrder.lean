import Jcode.Import.ClaudeCode

/-!
# The order of a transcript and its parents

The importer follows one chain from every root: a root, its first child, the first child of that,
and so on. All the other entries keep their order in the file. The entries therefore come after
their parents when every entry of a chain has a `uuid`, and when the file itself has the parents
first among the entries that no chain reaches.
-/

namespace Jcode

variable {entries ordered before after : List ClaudeCodeEntry} {visited : List String}
  {parent child entry entry' current : ClaudeCodeEntry} {uuid : String}

/-! ### Parents -/

def messageEntries (entries : List ClaudeCodeEntry) : List ClaudeCodeEntry :=
  entries.filter isMessageEntry

def IsParent (parent entry : ClaudeCodeEntry) : Prop :=
  parent.uuid ≠ none ∧ entry.parentUuid = parent.uuid

instance : Decidable (IsParent parent entry) :=
  inferInstanceAs (Decidable (parent.uuid ≠ none ∧ entry.parentUuid = parent.uuid))

/-- The chain of parents among the entries is acyclic: it ends. -/
inductive FiniteAncestry (entries : List ClaudeCodeEntry) : ClaudeCodeEntry → Prop
  | intro {entry : ClaudeCodeEntry}
      (hparents : ∀ parent ∈ entries, IsParent parent entry → FiniteAncestry entries parent) :
      FiniteAncestry entries entry

lemma FiniteAncestry.of_parent (h : FiniteAncestry entries parent)
    (honly : ∀ other ∈ entries, IsParent other entry → other = parent) :
    FiniteAncestry entries entry := by
  apply FiniteAncestry.intro
  intro other hother hisParent
  rwa [honly other hother hisParent]

/-- Wherever an entry with an acyclic chain stands in the list, its parent stands before it. -/
def FollowsParents (entries ordered : List ClaudeCodeEntry) : Prop :=
  ∀ before entry after, ordered = before ++ entry :: after → FiniteAncestry entries entry →
    ∀ parent ∈ entries, IsParent parent entry → parent ∈ before

/-- The importer ends, and returns every message entry once and after its parent. -/
def OrdersByParents (entries : List ClaudeCodeEntry) : Prop :=
  ∃ ordered, orderedClaudeCodeMessageEntries entries = some ordered ∧
    ordered.Perm (messageEntries entries) ∧ FollowsParents (messageEntries entries) ordered

/-! ### The chains of the roots -/

def firstChild (entries : List ClaudeCodeEntry) (parent : ClaudeCodeEntry) :
    Option ClaudeCodeEntry :=
  entries.find? fun entry => entry.parentUuid = parent.uuid

/-- The entries of the chains: a root leads, and so does the first child of a leading entry. -/
inductive Leads (entries : List ClaudeCodeEntry) : ClaudeCodeEntry → Prop
  | root {entry : ClaudeCodeEntry} (hmem : entry ∈ entries) (hroot : isRoot entries entry = true) :
      Leads entries entry
  | child {parent entry : ClaudeCodeEntry} (hparent : Leads entries parent)
      (hknown : parent.uuid ≠ none) (hfirst : firstChild entries parent = some entry) :
      Leads entries entry

lemma mem_of_firstChild (h : firstChild entries parent = some child) : child ∈ entries :=
  List.mem_of_find?_eq_some h

lemma parentUuid_of_firstChild (h : firstChild entries parent = some child) :
    child.parentUuid = parent.uuid := by
  simpa using List.find?_some h

lemma Leads.mem (h : Leads entries entry) : entry ∈ entries := by
  cases h with
  | root hmem _ => exact hmem
  | child _ _ hfirst => exact mem_of_firstChild hfirst

/-- Nothing is the parent of a root. -/
lemma not_isParent_of_isRoot (hroot : isRoot entries entry = true) (hparent : parent ∈ entries) :
    ¬ IsParent parent entry := by
  rintro ⟨hknown, heq⟩
  obtain ⟨uuid, huuid⟩ := Option.ne_none_iff_exists'.mp hknown
  rw [huuid] at heq
  simp only [isRoot, heq, decide_eq_true_eq] at hroot
  apply hroot
  exact List.mem_filterMap.mpr ⟨parent, hparent, huuid⟩

lemma eq_of_uuid (hdistinct : (entries.filterMap ClaudeCodeEntry.uuid).Nodup)
    (hentry : entry ∈ entries) (hentry' : entry' ∈ entries) (huuid : entry.uuid = some uuid)
    (huuid' : entry'.uuid = some uuid) : entry = entry' := by
  induction entries with
  | nil => simp at hentry
  | cons head tail ih =>
    have hrest : (tail.filterMap ClaudeCodeEntry.uuid).Nodup :=
      hdistinct.sublist ((List.sublist_cons_self head tail).filterMap _)
    have hhead : head.uuid = some uuid → ∀ other ∈ tail, other.uuid ≠ some uuid := by
      intro hhead other hother heq
      rw [List.filterMap_cons_some hhead, List.nodup_cons] at hdistinct
      exact hdistinct.1 (List.mem_filterMap.mpr ⟨other, hother, heq⟩)
    rcases List.mem_cons.mp hentry with rfl | htail <;>
      rcases List.mem_cons.mp hentry' with rfl | htail'
    · rfl
    · exact absurd huuid' (hhead huuid entry' htail')
    · exact absurd huuid (hhead huuid' entry htail)
    · exact ih hrest htail htail'

/-! ### The walk over the chains -/

/-- What the chains have put down when `current` is to be put down next: each entry has a `uuid`
and stands after its parent, and its first child is there or is `current`. -/
structure Walked (entries : List ClaudeCodeEntry) (visited : List String)
    (ordered : List ClaudeCodeEntry) (current : Option ClaudeCodeEntry) : Prop where
  known : ∀ entry ∈ ordered, entry.uuid ≠ none
  leads : ∀ entry ∈ ordered, Leads entries entry
  nodup : ordered.Nodup
  visited : ∀ uuid, uuid ∈ visited ↔ ∃ entry ∈ ordered, entry.uuid = some uuid
  parents : ∀ before entry after, ordered = before ++ entry :: after →
    ∀ parent ∈ entries, IsParent parent entry → parent ∈ before
  children : ∀ entry ∈ ordered, ∀ child, firstChild entries entry = some child →
    child ∈ ordered ∨ current = some child
  current_leads : ∀ entry ∈ current, Leads entries entry
  current_parents : ∀ entry ∈ current, ∀ parent ∈ entries, IsParent parent entry →
    parent ∈ ordered

lemma walked_nil : Walked entries [] [] none where
  known := by simp
  leads := by simp
  nodup := .nil
  visited := by simp
  parents := by simp
  children := by simp
  current_leads := by simp
  current_parents := by simp

namespace Walked

lemma isVisited_iff (hdistinct : (entries.filterMap ClaudeCodeEntry.uuid).Nodup)
    {next : Option ClaudeCodeEntry} (h : Walked entries visited ordered next)
    (hmem : entry ∈ entries) : isVisited visited entry = true ↔ entry ∈ ordered := by
  cases huuid : entry.uuid with
  | none =>
    have hnotMem : entry ∉ ordered := fun hordered => h.known entry hordered huuid
    simp [isVisited, huuid, hnotMem]
  | some uuid =>
    simp only [isVisited, huuid, Option.any_some, decide_eq_true_eq, h.visited]
    constructor
    · rintro ⟨other, hother, hsame⟩
      rwa [eq_of_uuid hdistinct hmem (h.leads other hother).mem huuid hsame]
    · intro hordered
      exact ⟨entry, hordered, huuid⟩

/-- A new chain starts at a root. -/
lemma start (h : Walked entries visited ordered none) (hmem : current ∈ entries)
    (hroot : isRoot entries current = true) : Walked entries visited ordered (some current) where
  known := h.known
  leads := h.leads
  nodup := h.nodup
  visited := h.visited
  parents := h.parents
  children entry hentry child hchild := by
    rcases h.children entry hentry child hchild with hordered | hnone
    · exact .inl hordered
    · cases hnone
  current_leads := by
    rintro entry ⟨⟩
    exact .root hmem hroot
  current_parents := by
    rintro entry ⟨⟩ parent hparent hisParent
    exact absurd hisParent (not_isParent_of_isRoot hroot hparent)

/-- A chain stops at an entry that is there already. -/
lemma stop (h : Walked entries visited ordered (some current)) (hordered : current ∈ ordered) :
    Walked entries visited ordered none where
  known := h.known
  leads := h.leads
  nodup := h.nodup
  visited := h.visited
  parents := h.parents
  children entry hentry child hchild := by
    rcases h.children entry hentry child hchild with hchild | heq
    · exact .inl hchild
    · cases heq
      exact .inl hordered
  current_leads := by simp
  current_parents := by simp

/-- The first child of an entry that is put down is new. -/
lemma firstChild_notMem (h : Walked entries visited ordered (some current))
    (hknown : current.uuid ≠ none) (hnew : current ∉ ordered)
    (hchild : firstChild entries current = some child) : child ∉ ordered ++ [current] := by
  have hcurrent : current ∈ entries := (h.current_leads current rfl).mem
  have hparent : IsParent current child := ⟨hknown, parentUuid_of_firstChild hchild⟩
  intro hmem
  rcases List.mem_append.mp hmem with hmem | hmem
  · obtain ⟨before, after, rfl⟩ := List.append_of_mem hmem
    apply hnew
    exact List.mem_append_left _ (h.parents before child after rfl current hcurrent hparent)
  · obtain rfl := List.mem_singleton.mp hmem
    exact hnew (h.current_parents child rfl child hcurrent hparent)

/-- One more entry is put down, and its first child is next. -/
lemma concat (hdistinct : (entries.filterMap ClaudeCodeEntry.uuid).Nodup)
    (h : Walked entries visited ordered (some current)) (huuid : current.uuid = some uuid)
    (hnew : current ∉ ordered) :
    Walked entries (visited ++ [uuid]) (ordered ++ [current]) (firstChild entries current) where
  known entry hentry := by
    rcases List.mem_append.mp hentry with hentry | hentry
    · exact h.known entry hentry
    · simp [List.mem_singleton.mp hentry, huuid]
  leads entry hentry := by
    rcases List.mem_append.mp hentry with hentry | hentry
    · exact h.leads entry hentry
    · rw [List.mem_singleton.mp hentry]
      exact h.current_leads current rfl
  nodup := by
    rw [← List.concat_eq_append]
    exact h.nodup.concat hnew
  visited other := by
    simp [h.visited, or_and_right, exists_or, huuid, eq_comm]
  parents before entry after hsplit parent hparent hisParent := by
    rcases List.eq_nil_or_concat after with rfl | ⟨after, last, rfl⟩
    · obtain ⟨rfl, heq⟩ := List.append_inj' hsplit rfl
      obtain rfl := List.singleton_inj.mp heq
      exact h.current_parents current rfl parent hparent hisParent
    · rw [List.concat_eq_append, ← List.cons_append, ← List.append_assoc] at hsplit
      obtain ⟨hsplit, -⟩ := List.append_inj' hsplit rfl
      exact h.parents before entry after hsplit parent hparent hisParent
  children entry hentry child hchild := by
    rcases List.mem_append.mp hentry with hentry | hentry
    · left
      rcases h.children entry hentry child hchild with hordered | heq
      · exact List.mem_append_left _ hordered
      · simp [Option.some_inj.mp heq]
    · rw [List.mem_singleton.mp hentry] at hchild
      exact .inr hchild
  current_leads entry hentry :=
    .child (h.current_leads current rfl) (by simp [huuid]) hentry
  current_parents entry hentry parent hparent hisParent := by
    have hcurrent : current ∈ entries := (h.current_leads current rfl).mem
    have hsame : parent.uuid = some uuid := by
      rw [← hisParent.2, parentUuid_of_firstChild hentry, huuid]
    rw [eq_of_uuid hdistinct hparent hcurrent hsame huuid]
    exact List.mem_append_right _ (List.mem_singleton_self current)

/-- The next entry of the chain is the first child. -/
lemma nextEntry_eq (hdistinct : (entries.filterMap ClaudeCodeEntry.uuid).Nodup)
    (h : Walked entries visited ordered (some current)) (huuid : current.uuid = some uuid)
    (hnew : current ∉ ordered) :
    nextEntry entries (visited ++ [uuid]) current = firstChild entries current := by
  have hknown : current.uuid ≠ none := by simp [huuid]
  have hwalked := h.concat hdistinct huuid hnew
  cases hchild : firstChild entries current with
  | none =>
    simp only [firstChild, List.find?_eq_none, decide_eq_true_eq] at hchild
    simp only [nextEntry, List.find?_eq_none, Bool.and_eq_true, decide_eq_true_eq]
    intro entry hentry hnext
    exact hchild entry hentry hnext.1
  | some child =>
    have hfresh : isVisited (visited ++ [uuid]) child = false := by
      rw [← Bool.not_eq_true, hwalked.isVisited_iff hdistinct (mem_of_firstChild hchild)]
      exact h.firstChild_notMem hknown hnew hchild
    simp only [firstChild, List.find?_eq_some_iff_append] at hchild
    simp only [nextEntry, List.find?_eq_some_iff_append]
    obtain ⟨heq, before, after, hsplit, hbefore⟩ := hchild
    refine ⟨by simpa [hfresh] using heq, before, after, hsplit, ?_⟩
    intro entry hentry
    simpa using .inl (by simpa using hbefore entry hentry)

end Walked

/-- Nothing comes of the walk, or an entry without `uuid` is put down. -/
def Strays (read : Option (List String × List ClaudeCodeEntry)) : Prop :=
  ∀ put ∈ read, ∃ entry ∈ put.2, entry.uuid = none

lemma subset_followChain {put : List String × List ClaudeCodeEntry}
    (h : followChain entries visited ordered current = some put) : ordered ⊆ put.2 := by
  fun_induction followChain entries visited ordered current with
  | case1 visited ordered current _ =>
    obtain rfl := Option.some_inj.mp h
    exact List.Subset.refl _
  | case2 visited ordered current _ _ =>
    obtain rfl := Option.some_inj.mp h
    exact List.subset_append_left _ _
  | case3 => cases h
  | case4 visited ordered current _ next _ _ ih =>
    exact List.Subset.trans (List.subset_append_left _ _) (ih h)

lemma subset_followRoots {roots : List ClaudeCodeEntry}
    {put : List String × List ClaudeCodeEntry}
    (h : followRoots entries visited ordered roots = some put) : ordered ⊆ put.2 := by
  induction roots generalizing visited ordered with
  | nil =>
    obtain rfl := Option.some_inj.mp h
    exact List.Subset.refl _
  | cons root roots ih =>
    obtain ⟨first, hfirst, hrest⟩ := Option.bind_eq_some_iff.mp h
    exact List.Subset.trans (subset_followChain hfirst) (ih hrest)

lemma strays_followChain (huuid : current.uuid = none) :
    Strays (followChain entries visited ordered current) := by
  intro put hput
  refine ⟨current, ?_, huuid⟩
  have hnew : isVisited visited current = false := by simp [isVisited, huuid]
  have hself : current ∈ ordered ++ [current] := by simp
  rw [followChain, hnew] at hput
  simp only [Bool.false_eq_true, if_false] at hput
  split at hput
  · obtain rfl := Option.some_inj.mp hput
    exact hself
  · split at hput
    · cases hput
    · exact subset_followChain hput hself

/-- A chain puts down the leading entries that follow its root, unless one has no `uuid`. -/
lemma followChain_cases (hdistinct : (entries.filterMap ClaudeCodeEntry.uuid).Nodup)
    (h : Walked entries visited ordered (some current)) :
    ((∃ entry, Leads entries entry ∧ entry.uuid = none) ∧
        Strays (followChain entries visited ordered current)) ∨
      ∃ put, followChain entries visited ordered current = some put ∧
        Walked entries put.1 put.2 none ∧ current ∈ put.2 := by
  have hleads : Leads entries current := h.current_leads current rfl
  cases huuid : current.uuid with
  | none => exact .inl ⟨⟨current, hleads, huuid⟩, strays_followChain huuid⟩
  | some uuid =>
    fun_induction followChain entries visited ordered current generalizing uuid with
    | case1 visited ordered current hvisited =>
      have hordered := (h.isVisited_iff hdistinct hleads.mem).mp hvisited
      exact .inr ⟨_, rfl, h.stop hordered, hordered⟩
    | case2 visited ordered current hnew hnext =>
      rw [h.isVisited_iff hdistinct hleads.mem] at hnew
      have hwalked := h.concat hdistinct huuid hnew
      simp only [huuid, Option.toList_some] at hnext ⊢
      rw [← h.nextEntry_eq hdistinct huuid hnew, hnext] at hwalked
      exact .inr ⟨_, rfl, hwalked, by simp⟩
    | case3 visited ordered current _ _ _ hloop => simp [huuid] at hloop
    | case4 visited ordered current hnew next hnext _ ih =>
      rw [h.isVisited_iff hdistinct hleads.mem] at hnew
      have hwalked := h.concat hdistinct huuid hnew
      simp only [huuid, Option.toList_some] at hnext ih ⊢
      rw [← h.nextEntry_eq hdistinct huuid hnew, hnext] at hwalked
      have hleads' : Leads entries next := hwalked.current_leads next rfl
      have hself : current ∈ ordered ++ [current] := by simp
      cases huuid' : next.uuid with
      | none => exact .inl ⟨⟨next, hleads', huuid'⟩, strays_followChain huuid'⟩
      | some uuid' =>
        apply (ih hwalked hleads' uuid' huuid').imp_right
        rintro ⟨put, hput, hwalked', -⟩
        exact ⟨put, hput, hwalked', subset_followChain hput hself⟩

lemma followRoots_cases {roots : List ClaudeCodeEntry}
    (hdistinct : (entries.filterMap ClaudeCodeEntry.uuid).Nodup)
    (h : Walked entries visited ordered none)
    (hroots : ∀ root ∈ roots, root ∈ entries ∧ isRoot entries root = true) :
    ((∃ entry, Leads entries entry ∧ entry.uuid = none) ∧
        Strays (followRoots entries visited ordered roots)) ∨
      ∃ put, followRoots entries visited ordered roots = some put ∧
        Walked entries put.1 put.2 none ∧ ∀ root ∈ roots, root ∈ put.2 := by
  induction roots generalizing visited ordered with
  | nil => exact .inr ⟨_, rfl, h, by simp⟩
  | cons root roots ih =>
    obtain ⟨⟨hmem, hroot⟩, hroots⟩ := List.forall_mem_cons.mp hroots
    rcases followChain_cases hdistinct (h.start hmem hroot) with
      ⟨hstray, hstrays⟩ | ⟨first, hfirst, hwalked, hordered⟩
    · refine .inl ⟨hstray, ?_⟩
      intro put hput
      obtain ⟨first, hfirst, hrest⟩ := Option.bind_eq_some_iff.mp hput
      obtain ⟨entry, hentry, huuid⟩ := hstrays first hfirst
      exact ⟨entry, subset_followRoots hrest hentry, huuid⟩
    · rw [followRoots, hfirst]
      apply (ih hwalked hroots).imp_right
      rintro ⟨put, hput, hwalked', hrest⟩
      have hfirst : root ∈ put.2 := subset_followRoots hput hordered
      exact ⟨put, hput, hwalked', List.forall_mem_cons.mpr ⟨hfirst, hrest⟩⟩

/-- Once the chains are done, they have put down the leading entries. -/
lemma Walked.mem_iff (h : Walked entries visited ordered none)
    (hroots : ∀ root ∈ entries.filter (isRoot entries), root ∈ ordered) :
    entry ∈ ordered ↔ Leads entries entry := by
  constructor
  · exact h.leads entry
  · intro hleads
    induction hleads with
    | root hmem hroot => exact hroots _ (List.mem_filter.mpr ⟨hmem, hroot⟩)
    | child _ _ hfirst ih =>
      rcases h.children _ ih _ hfirst with hordered | hnone
      · exact hordered
      · cases hnone

/-! ### The entries that no chain reaches -/

/-- The entries put down by the chains and those that are left are the message entries. -/
lemma Walked.perm (hdistinct : (entries.filterMap ClaudeCodeEntry.uuid).Nodup)
    (h : Walked entries visited ordered none) :
    (ordered ++ entries.filter fun entry => !isVisited visited entry).Perm entries := by
  have hchains : ordered.Perm (entries.filter (isVisited visited)) := by
    have hpairwise := List.pairwise_filterMap.mp hdistinct
    have hnodup : (entries.filter (isVisited visited)).Nodup := by
      apply List.Pairwise.imp_of_mem _ (hpairwise.filter (isVisited visited))
      intro first second hfirst _ hdiffer heq
      have hvisited := List.of_mem_filter hfirst
      cases huuid : first.uuid with
      | none => simp [isVisited, huuid] at hvisited
      | some uuid => exact hdiffer uuid huuid uuid (heq ▸ huuid) rfl
    refine (List.perm_ext_iff_of_nodup h.nodup hnodup).mpr fun entry => ?_
    rw [List.mem_filter]
    constructor
    · intro hordered
      have hmem := (h.leads entry hordered).mem
      exact ⟨hmem, (h.isVisited_iff hdistinct hmem).mpr hordered⟩
    · rintro ⟨hmem, hvisited⟩
      exact (h.isVisited_iff hdistinct hmem).mp hvisited
  exact (hchains.append_right _).trans (List.filter_append_perm _ _)

/-- An entry without `uuid` is left even when a chain has put it down. -/
lemma not_perm_of_stray (hentry : entry ∈ ordered) (huuid : entry.uuid = none) :
    ¬ (ordered ++ entries.filter fun entry => !isVisited visited entry).Perm entries := by
  intro hperm
  have hcount := hperm.count_eq entry
  have hkept : (entries.filter fun entry => !isVisited visited entry).count entry =
      entries.count entry := List.count_filter (by simp [isVisited, huuid])
  have hpos : 0 < ordered.count entry := List.count_pos_iff.mpr hentry
  rw [List.count_append, hkept] at hcount
  omega

/-- The file has the parents first among the entries that no chain reaches. -/
def RestFollowsParents (entries : List ClaudeCodeEntry) : Prop :=
  ∀ before entry after, entries = before ++ entry :: after → FiniteAncestry entries entry →
    ¬ Leads entries entry → ∀ parent ∈ entries, IsParent parent entry → ¬ Leads entries parent →
    parent ∈ before

/-- What is left keeps the order of the file. -/
lemma Walked.followsParents_append_iff {isLeft : ClaudeCodeEntry → Bool}
    (h : Walked entries visited ordered none)
    (hordered : ∀ entry, entry ∈ ordered ↔ Leads entries entry)
    (hleft : ∀ entry ∈ entries, isLeft entry = true ↔ ¬ Leads entries entry) :
    FollowsParents entries (ordered ++ entries.filter isLeft) ↔ RestFollowsParents entries := by
  constructor
  · intro hfollows before entry after hsplit hancestry hentry parent hparent hisParent hparent'
    have hkept : isLeft entry = true := (hleft entry (by simp [hsplit])).mpr hentry
    have hrest : ordered ++ entries.filter isLeft =
        (ordered ++ before.filter isLeft) ++ entry :: after.filter isLeft := by
      conv_lhs => rw [hsplit, List.filter_append, List.filter_cons_of_pos hkept]
      rw [List.append_assoc]
    have hbefore := hfollows _ _ _ hrest hancestry parent hparent hisParent
    rcases List.mem_append.mp hbefore with hmem | hmem
    · exact absurd ((hordered parent).mp hmem) hparent'
    · exact List.mem_of_mem_filter hmem
  · intro hrest before entry after hsplit hancestry parent hparent hisParent
    -- the entry is one of those that are left
    have hleftover : ∀ kept, entries.filter isLeft = kept ++ entry :: after →
        parent ∈ ordered ++ kept := by
      intro kept hkept
      obtain ⟨front, back, rfl, rfl, hback⟩ := List.filter_eq_append_iff.mp hkept
      obtain ⟨skipped, rest, rfl, hskipped, hentry, -⟩ := List.filter_eq_cons_iff.mp hback
      by_cases hleads : Leads (front ++ (skipped ++ entry :: rest)) parent
      · exact List.mem_append_left _ ((hordered parent).mpr hleads)
      · have hparent' := (hleft parent hparent).mpr hleads
        have hentry' := (hleft entry (by simp)).mp hentry
        have hbefore := hrest (front ++ skipped) entry rest (by simp) hancestry hentry' parent
          hparent hisParent hleads
        rcases List.mem_append.mp hbefore with hmem | hmem
        · exact List.mem_append_right _ (List.mem_filter.mpr ⟨hmem, hparent'⟩)
        · exact absurd hparent' (hskipped parent hmem)
    rcases List.append_eq_append_iff.mp hsplit with ⟨kept, rfl, hkept⟩ | ⟨tail, rfl, htail⟩
    · exact hleftover kept hkept
    · cases tail with
      | nil => simpa using hleftover [] htail.symm
      | cons head tail =>
        obtain ⟨rfl, -⟩ := List.cons.inj htail
        exact h.parents before entry tail rfl parent hparent hisParent

/-- The importer orders a transcript by its parents if and only if every leading entry has a `uuid`
and the file has the parents first among the other entries. -/
theorem ordersByParents_iff (hdistinct : (entries.filterMap ClaudeCodeEntry.uuid).Nodup) :
    OrdersByParents entries ↔
      (∀ entry, Leads (messageEntries entries) entry → entry.uuid ≠ none) ∧
        RestFollowsParents (messageEntries entries) := by
  have hmessages : ((messageEntries entries).filterMap ClaudeCodeEntry.uuid).Nodup :=
    hdistinct.sublist (List.filter_sublist.filterMap _)
  have hroots : ∀ root ∈ (messageEntries entries).filter (isRoot (messageEntries entries)),
      root ∈ messageEntries entries ∧ isRoot (messageEntries entries) root = true :=
    fun root hroot => List.mem_filter.mp hroot
  rcases followRoots_cases hmessages walked_nil hroots with
    ⟨⟨entry, hleads, huuid⟩, hstrays⟩ | ⟨put, hput, hwalked, hordered⟩
  · constructor
    · rintro ⟨ordered, hreturns, hperm, -⟩
      obtain ⟨put, hput, rfl⟩ := Option.map_eq_some_iff.mp hreturns
      obtain ⟨stray, hstray, hunknown⟩ := hstrays put hput
      exact absurd hperm (not_perm_of_stray hstray hunknown)
    · rintro ⟨hknown, -⟩
      exact absurd huuid (hknown entry hleads)
  · have hmem : ∀ entry, entry ∈ put.2 ↔ Leads (messageEntries entries) entry :=
      fun entry => hwalked.mem_iff hordered
    have hleft : ∀ entry ∈ messageEntries entries,
        (!isVisited put.1 entry) = true ↔ ¬ Leads (messageEntries entries) entry := by
      intro entry hentry
      rw [← hmem, ← hwalked.isVisited_iff hmessages hentry]
      simp
    have hreturns : orderedClaudeCodeMessageEntries entries =
        some (put.2 ++ (messageEntries entries).filter fun entry => !isVisited put.1 entry) :=
      Option.map_eq_some_iff.mpr ⟨put, hput, rfl⟩
    rw [← hwalked.followsParents_append_iff hmem hleft]
    constructor
    · rintro ⟨ordered, heq, -, hfollows⟩
      obtain rfl := Option.some_inj.mp (hreturns.symm.trans heq)
      exact ⟨fun entry hleads => hwalked.known entry ((hmem entry).mpr hleads), hfollows⟩
    · rintro ⟨-, hfollows⟩
      exact ⟨_, hreturns, hwalked.perm hmessages, hfollows⟩

def messageAfter (uuid : String) (parentUuid : Option String) : ClaudeCodeEntry where
  entryType := "user"
  uuid := some uuid
  parentUuid := parentUuid
  cwd := none
  message := some ⟨"user", none, .text uuid⟩
  timestamp := none
  isSidechain := false

/-- A child that the file has before its parent. -/
def swappedTranscript : List ClaudeCodeEntry :=
  [messageAfter "b" (some "a"), messageAfter "a" none]

theorem ordersByParents_swapped : OrdersByParents swappedTranscript := by
  apply (ordersByParents_iff (by decide)).mpr
  have hroot : Leads (messageEntries swappedTranscript) (messageAfter "a" none) :=
    .root (by decide) (by decide)
  have hchild : Leads (messageEntries swappedTranscript) (messageAfter "b" (some "a")) :=
    .child hroot (by decide) (by decide)
  have hall : ∀ entry ∈ messageEntries swappedTranscript,
      Leads (messageEntries swappedTranscript) entry := by
    have hentries : messageEntries swappedTranscript = swappedTranscript := by decide
    intro entry hentry
    rw [hentries, swappedTranscript, List.mem_cons, List.mem_singleton] at hentry
    rcases hentry with rfl | rfl
    · exact hchild
    · exact hroot
  constructor
  · have hknown : ∀ entry ∈ messageEntries swappedTranscript, entry.uuid ≠ none := by decide
    exact fun entry hleads => hknown entry hleads.mem
  · intro before entry after hsplit _ hrest
    exact absurd (hall entry (by simp [hsplit])) hrest

/-- The second child of the root, and before it in the file an answer to it. -/
def branchedTranscript : List ClaudeCodeEntry :=
  [messageAfter "a" none, messageAfter "b" (some "a"), messageAfter "d" (some "c"),
    messageAfter "c" (some "a")]

/-- The answer stays before the child: no chain reaches either of them. -/
theorem not_ordersByParents :
    (branchedTranscript.filterMap ClaudeCodeEntry.uuid).Nodup ∧
      ¬ OrdersByParents branchedTranscript := by
  refine ⟨by decide, ?_⟩
  rintro ⟨ordered, hreturns, -, hfollows⟩
  have hsame : orderedClaudeCodeMessageEntries branchedTranscript = some branchedTranscript := by
    decide +kernel
  obtain rfl := Option.some_inj.mp (hsame.symm.trans hreturns)
  have hroot : FiniteAncestry (messageEntries branchedTranscript) (messageAfter "a" none) := by
    apply FiniteAncestry.intro
    intro parent hparent hisParent
    exact absurd hisParent (not_isParent_of_isRoot (by decide) hparent)
  have hchild : FiniteAncestry (messageEntries branchedTranscript) (messageAfter "c" (some "a")) :=
    hroot.of_parent (by decide)
  have hancestry :
      FiniteAncestry (messageEntries branchedTranscript) (messageAfter "d" (some "c")) :=
    hchild.of_parent (by decide)
  have hbefore := hfollows [messageAfter "a" none, messageAfter "b" (some "a")]
    (messageAfter "d" (some "c")) [messageAfter "c" (some "a")] rfl hancestry
    (messageAfter "c" (some "a")) (by decide) (by decide)
  exact absurd hbefore (by decide)

end Jcode
