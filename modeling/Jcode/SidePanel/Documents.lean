import Jcode.Foundation.KeyedList
import Jcode.Foundation.Run
import Jcode.SidePanel.Pages

/-!
# Pages as documents

A session's pages are a map of documents: a write sets one, a deletion drops it, and all others stay
as they are. What a page shows is found by its record, in its own file or in one outside the
directory; its own file may also be left from when it was written before it was loaded.
-/

namespace Jcode

namespace SidePanel

open Schedule

/-! ### Calls -/

inductive Call
  | writeMarkdownPage (pageId : String) (title : Option String) (content : String) (focus : Bool)
  | appendMarkdownPage (pageId : String) (title : Option String) (content : String) (focus : Bool)
  | loadMarkdownFile (pageId : String) (title : Option String) (sourcePath : String) (focus : Bool)
  | focusPage (pageId : String)
  | deletePage (pageId : String)
deriving DecidableEq

variable (host : Host)

def call (dir : Directory) (moment : Moment) :
    Call → Directory × Except Failure SidePanelSnapshot
  | .writeMarkdownPage pageId title content focus =>
    writeMarkdownPage host dir moment pageId title content focus
  | .appendMarkdownPage pageId title content focus =>
    appendMarkdownPage host dir moment pageId title content focus
  | .loadMarkdownFile pageId title sourcePath focus =>
    loadMarkdownFile host dir moment pageId title sourcePath focus
  | .focusPage pageId => focusPage host dir moment pageId
  | .deletePage pageId => deletePage host dir moment pageId

/-- Calls of one session, each at its moment. -/
def step (dir : Directory) (x : Moment × Call) : Option Directory := some (call host dir x.1 x.2).1

/-- No file is there yet. -/
def emptyDir : Directory := fun _ => none

/-! ### Documents -/

/-- What a snapshot shows of a page. -/
def SidePanelSnapshot.shown (snapshot : SidePanelSnapshot) (pageId : String) : Option String :=
  (snapshot.pages.find? (·.id = pageId)).map (·.content)

structure SidePanelSnapshot.Coherent (snapshot : SidePanelSnapshot) : Prop where
  nodup : (snapshot.pages.map (·.id)).Nodup
  focused_eq_none : snapshot.focusedPageId = none ↔ snapshot.pages = []
  focused_mem : ∀ pageId ∈ snapshot.focusedPageId, pageId ∈ snapshot.pages.map (·.id)

/-- What a call makes of the documents. -/
def Call.effect (shown : String → Option String) : Call → String → Option String
  | .writeMarkdownPage pageId _ content _ => Function.update shown pageId (some content)
  | .appendMarkdownPage pageId _ content _ =>
    Function.update shown pageId (some (endLine ((shown pageId).getD "") ++ content))
  | .loadMarkdownFile pageId _ sourcePath _ =>
    Function.update shown pageId ((host.files sourcePath).bind readUtf8)
  | .focusPage _ => shown
  | .deletePage pageId => Function.update shown pageId none

def Call.pageId : Call → String
  | .writeMarkdownPage pageId _ _ _ | .appendMarkdownPage pageId _ _ _
  | .loadMarkdownFile pageId _ _ _ | .focusPage pageId | .deletePage pageId => pageId

/-- Why a call fails: its page id is not accepted, or there is nothing to load, focus or delete. -/
def Call.Refused (shown : String → Option String) (c : Call) : Prop :=
  validatePageId c.pageId ≠ .ok () ∨
    match c with
    | .writeMarkdownPage _ _ _ _ | .appendMarkdownPage _ _ _ _ => False
    | .loadMarkdownFile _ _ sourcePath _ =>
      validateMarkdownSourcePath sourcePath ≠ .ok () ∨ (host.files sourcePath).bind readUtf8 = none
    | .focusPage pageId | .deletePage pageId => shown pageId = none

/-- A call behaves like one on a map of documents: it changes the documents as it should, or it is
refused and changes nothing. -/
def Behaves (dir : Directory) (x : Moment × Call) : Prop :=
  ∃ old, snapshotForSession host dir = (dir, .ok old) ∧
    match call host dir x.1 x.2 with
    | (dir', .ok snapshot) =>
      ¬x.2.Refused host old.shown ∧ snapshot.Coherent ∧
        snapshot.shown = x.2.effect host old.shown ∧
          ∃ new, snapshotForSession host dir' = (dir', .ok new) ∧ new.shown = snapshot.shown
    | (dir', .error _) => x.2.Refused host old.shown ∧ dir' = dir

/-- An append goes on from what the page shows: its own file holds that, up to a line break at its
end. -/
def AppendsToShown (dir : Directory) (x : Moment × Call) : Prop :=
  match x.2 with
  | .appendMarkdownPage pageId _ _ _ =>
    ∀ old, snapshotForSession host dir = (dir, .ok old) → ∀ content ∈ old.shown pageId,
      endLine ((readToString host dir (.own (pagePath pageId))).getD "") = endLine content
  | _ => True

/-! ### The index -/

section

variable {host} {dir dir' : Directory} {moment : Moment} {state state' : PersistedSidePanelState}
  {pageId : String} {title : Option String} {filePath : PagePath} {source : SidePanelPageSource}
  {updatedAtMs : Nat} {focus : Bool} {page : PersistedSidePanelPage}

/-- The record of a page is set, and the others are kept. -/
lemma upsertPageRecord_pages (hnodup : (state.pages.map (·.id)).Nodup) :
    ∃ title' : String,
      (∀ q, q ∈ (upsertPageRecord state pageId title filePath source updatedAtMs focus).pages ↔
        q = ⟨pageId, title', filePath, source, updatedAtMs⟩ ∨ q ∈ state.pages ∧ q.id ≠ pageId) ∧
      ((upsertPageRecord state pageId title filePath source updatedAtMs focus).pages.map
        (·.id)).Nodup := by
  rw [upsertPageRecord]
  cases hfind : state.pages.find? (·.id = pageId) with
  | none =>
    have hne : pageId ∉ state.pages.map (·.id) := KeyedList.find?_eq_none_iff.1 hfind
    have hall : ∀ q ∈ state.pages, q.id ≠ pageId := fun q hq heq =>
      hne (heq ▸ List.mem_map_of_mem hq)
    refine ⟨((title.map trim).filter (· ≠ "")).getD pageId, fun q => ?_, ?_⟩
    · simp only [List.mem_mergeSort, List.mem_append, List.mem_singleton]
      rw [or_comm, and_iff_left_of_imp (hall q)]
    · rw [((List.mergeSort_perm _ _).map _).nodup_iff, List.map_append]
      exact hnodup.append (List.nodup_singleton _) (by simpa using hall)
  | some existing =>
    obtain ⟨hmem, rfl⟩ := (KeyedList.find?_eq_some_iff hnodup).1 hfind
    refine ⟨((title.map trim).filter (· ≠ "")).getD existing.title, fun q => ?_, ?_⟩
    · simp only [List.mem_mergeSort]
      exact KeyedList.mem_replaceF hnodup hmem
    · rw [((List.mergeSort_perm _ _).map _).nodup_iff, KeyedList.map_replaceF]
      · exact hnodup
      · intro a b hab
        split_ifs at hab with ha
        cases hab
        rfl

lemma saveState_apply (name : FileName) :
    saveState host dir moment state name =
      if name = stateFile.withExtension (tmpExtension moment.pid moment.nonce) then none
      else if name = stateFile then some (utf8 (host.codec.encode state))
      else if name = stateFile.withExtension "bak" then
        (dir stateFile).or (dir (stateFile.withExtension "bak"))
      else dir name :=
  writeBytesInner_apply (tmpExtension_ne (by decide)).symm (tmpExtension_ne (by decide)).symm
    (show "json" ≠ "bak" by decide)

/-- The files of the pages have an extension of their own. -/
lemma saveState_pagePath :
    saveState host dir moment state (pagePath pageId) = dir (pagePath pageId) := by
  have hne : ∀ ext, ext ≠ "md" → pagePath pageId ≠ stateFile.withExtension ext := by
    intro ext hext heq
    exact hext (congrArg FileName.extension heq).symm
  have hstate : pagePath pageId ≠ stateFile := hne "json" (by decide)
  rw [saveState_apply, if_neg (hne _ (tmpExtension_ne (by decide))), if_neg hstate,
    if_neg (hne "bak" (by decide))]

lemma loadState_saveState (h : host.Lawful) :
    loadState host (saveState host dir moment state) =
      (some state, saveState host dir moment state) := by
  have hfile : saveState host dir moment state stateFile =
      some (utf8 (host.codec.encode state)) := by
    have hne : stateFile ≠ stateFile.withExtension (tmpExtension moment.pid moment.nonce) :=
      mt FileName.eq_withExtension.1 (tmpExtension_ne (by decide)).symm
    rw [saveState_apply, if_neg hne, if_pos rfl]
  rw [loadState, if_pos (by simp [Directory.pathExists, hfile])]
  exact readJson_eq hfile (h.lossless state trivial)

end

/-! ### Sound states -/

/-- A page shows a text: one of its own file, or one that lies outside. -/
def Backed (dir : Directory) (page : PersistedSidePanelPage) : Prop :=
  match page.source with
  | .managed =>
    page.filePath = .own (pagePath page.id) ∧ ∃ text, dir (pagePath page.id) = some (utf8 text)
  | .linkedFile =>
    ∃ path text, page.filePath = .outside path ∧ host.files path = some (utf8 text)
  | .ephemeral => False

/-- The records and the files fit: each page has its text, and no file is left of a page that is not
there. -/
structure Filed (dir : Directory) (state : PersistedSidePanelState) : Prop where
  nodup : (state.pages.map (·.id)).Nodup
  valid : ∀ page ∈ state.pages, validatePageId page.id = .ok ()
  focused_eq_none : state.focusedPageId = none ↔ state.pages = []
  focused_mem : ∀ pageId ∈ state.focusedPageId, pageId ∈ state.pages.map (·.id)
  backed : ∀ page ∈ state.pages, Backed host dir page
  texts : ∀ pageId bytes, dir (pagePath pageId) = some bytes → ∃ text, bytes = utf8 text
  unused : ∀ pageId, pageId ∉ state.pages.map (·.id) → dir (pagePath pageId) = none

/-- The index is that of the state. -/
structure Sound (dir : Directory) (state : PersistedSidePanelState) : Prop
    extends Filed host dir state where
  loaded : loadState host dir = (some state, dir)

section

variable {host} {dir dir' : Directory} {moment : Moment} {state state' : PersistedSidePanelState}
  {pageId : String} {title : Option String} {filePath : PagePath} {source : SidePanelPageSource}
  {updatedAtMs : Nat} {focus : Bool} {page : PersistedSidePanelPage}

/-- What is shown of a page depends on its own file alone. -/
lemma Backed.congr (h : Backed host dir page)
    (hdir : dir' (pagePath page.id) = dir (pagePath page.id)) :
    Backed host dir' page ∧
      (hydratePage host dir' page).content = (hydratePage host dir page).content := by
  rw [Backed] at *
  simp only [hydratePage]
  cases hsource : page.source with
  | managed =>
    rw [hsource] at h
    obtain ⟨hpath, text, htext⟩ := h
    exact ⟨⟨hpath, text, hdir.trans htext⟩, by simp [hpath, readToString, hdir]⟩
  | linkedFile =>
    rw [hsource] at h
    obtain ⟨path, text, hpath, htext⟩ := h
    exact ⟨⟨path, text, hpath, htext⟩, by simp [hpath, readToString]⟩
  | ephemeral =>
    rw [hsource] at h
    exact h.elim

lemma Backed.content (h : Backed host dir page) :
    (hydratePage host dir page).content = (readToString host dir page.filePath).getD "" := by
  have hsource : page.source ≠ .ephemeral := by
    intro hsource
    simp [Backed, hsource] at h
  exact if_neg hsource

lemma pagePath_inj {i j : String} : pagePath i = pagePath j ↔ i = j := by
  simp [pagePath]

lemma shown_hydrateSnapshot : (hydrateSnapshot host dir state).shown pageId =
    (state.pages.find? (·.id = pageId)).map fun page => (hydratePage host dir page).content := by
  rw [SidePanelSnapshot.shown, hydrateSnapshot, List.find?_map, Option.map_map]
  rfl

/-- A page that is not shown is not in the index. -/
lemma shown_eq_none : (hydrateSnapshot host dir state).shown pageId = none ↔
    pageId ∉ state.pages.map (·.id) := by
  rw [shown_hydrateSnapshot, Option.map_eq_none_iff, KeyedList.find?_eq_none_iff]

lemma Filed.shown_eq_some (h : Filed host dir state) (hpage : page ∈ state.pages) :
    (hydrateSnapshot host dir state).shown page.id =
      some (hydratePage host dir page).content := by
  rw [shown_hydrateSnapshot, (KeyedList.find?_eq_some_iff h.nodup).2 ⟨hpage, rfl⟩]
  rfl

/-- A page whose record and file stay shows what it has shown. -/
lemma Filed.shown_congr (h : Filed host dir state) (hnodup : (state'.pages.map (·.id)).Nodup)
    (hpages : ∀ q : PersistedSidePanelPage, q.id = pageId → (q ∈ state'.pages ↔ q ∈ state.pages))
    (hdir : dir' (pagePath pageId) = dir (pagePath pageId)) :
    (hydrateSnapshot host dir' state').shown pageId =
      (hydrateSnapshot host dir state).shown pageId := by
  rw [shown_hydrateSnapshot, shown_hydrateSnapshot,
    KeyedList.find?_congr hnodup h.nodup hpages]
  cases hfind : state.pages.find? (·.id = pageId) with
  | none => rfl
  | some page =>
    obtain ⟨hpage, rfl⟩ := (KeyedList.find?_eq_some_iff h.nodup).1 hfind
    exact congrArg some ((h.backed page hpage).congr hdir).2

lemma Filed.coherent (h : Filed host dir state) : (hydrateSnapshot host dir state).Coherent := by
  have hids : (hydrateSnapshot host dir state).pages.map (·.id) = state.pages.map (·.id) := by
    rw [hydrateSnapshot, List.map_map]
    rfl
  refine ⟨hids ▸ h.nodup, ?_, hids ▸ h.focused_mem⟩
  rw [hydrateSnapshot, List.map_eq_nil_iff]
  exact h.focused_eq_none

lemma Sound.snapshotForSession (h : Sound host dir state) :
    snapshotForSession host dir = (dir, .ok (hydrateSnapshot host dir state)) := by
  rw [SidePanel.snapshotForSession, h.loaded]

lemma filed_emptyDir : Filed host emptyDir .default where
  nodup := List.nodup_nil
  valid _ hpage := absurd hpage List.not_mem_nil
  focused_eq_none := Iff.intro (fun _ => rfl) fun _ => rfl
  focused_mem _ hpage := absurd hpage (Option.not_mem_none _)
  backed _ hpage := absurd hpage List.not_mem_nil
  texts _ _ hbytes := absurd hbytes (Option.some_ne_none _).symm
  unused _ _ := rfl

lemma sound_emptyDir : Sound host emptyDir .default := ⟨filed_emptyDir, rfl⟩

/-- The index is written beside the pages. -/
lemma Filed.save (h : Filed host dir state) (hhost : host.Lawful) (moment : Moment) :
    Sound host (saveState host dir moment state) state ∧
      (hydrateSnapshot host (saveState host dir moment state) state).shown =
        (hydrateSnapshot host dir state).shown := by
  refine ⟨⟨⟨h.nodup, h.valid, h.focused_eq_none, h.focused_mem, fun page hpage => ?_, ?_, ?_⟩,
    loadState_saveState hhost⟩, funext fun pageId => ?_⟩
  · exact ((h.backed page hpage).congr saveState_pagePath).1
  · simpa only [saveState_pagePath] using h.texts
  · simpa only [saveState_pagePath] using h.unused
  · exact h.shown_congr h.nodup (fun _ _ => Iff.rfl) saveState_pagePath

/-! ### What the operations do -/

/-- A page is written or loaded: its record and perhaps its own file are new, and nothing else
is. -/
lemma Filed.upsert (h : Filed host dir state) (hvalid : validatePageId pageId = .ok ())
    (hother : ∀ i, i ≠ pageId → dir' (pagePath i) = dir (pagePath i))
    (htexts : ∀ bytes, dir' (pagePath pageId) = some bytes → ∃ text, bytes = utf8 text)
    (hbacked : ∀ title', Backed host dir' ⟨pageId, title', filePath, source, updatedAtMs⟩)
    (title : Option String) (focus : Bool) :
    let state' := upsertPageRecord state pageId title filePath source updatedAtMs focus
    Filed host dir' state' ∧
      (hydrateSnapshot host dir' state').shown =
        Function.update (hydrateSnapshot host dir state).shown pageId
          (some ((readToString host dir' filePath).getD "")) := by
  intro state'
  obtain ⟨title', hmem, hnodup⟩ : ∃ title' : String,
      (∀ q, q ∈ state'.pages ↔
        q = ⟨pageId, title', filePath, source, updatedAtMs⟩ ∨ q ∈ state.pages ∧ q.id ≠ pageId) ∧
      (state'.pages.map (·.id)).Nodup := upsertPageRecord_pages h.nodup
  have hnew : ⟨pageId, title', filePath, source, updatedAtMs⟩ ∈ state'.pages :=
    (hmem _).2 (.inl rfl)
  have hids : ∀ i, i ∈ state'.pages.map (·.id) ↔ i = pageId ∨ i ∈ state.pages.map (·.id) := by
    intro i
    simp only [List.mem_map]
    constructor
    · rintro ⟨q, hq, rfl⟩
      rcases (hmem q).1 hq with rfl | ⟨hq, -⟩
      · exact .inl rfl
      · exact .inr ⟨q, hq, rfl⟩
    · rintro (rfl | ⟨q, hq, rfl⟩)
      · exact ⟨_, hnew, rfl⟩
      · by_cases hid : q.id = pageId
        · exact ⟨_, hnew, hid.symm⟩
        · exact ⟨q, (hmem q).2 (.inr ⟨hq, hid⟩), rfl⟩
  have hfocused : state'.focusedPageId = some pageId ∨
      state'.focusedPageId = state.focusedPageId ∧ state.focusedPageId ≠ none := by
    by_cases hf : focus = true ∨ state.focusedPageId = none
    · exact .inl (if_pos hf)
    · exact .inr ⟨if_neg hf, fun hnone => hf (.inr hnone)⟩
  have hfiled : Filed host dir' state' := by
    refine ⟨hnodup, fun q hq => ?_, ?_, fun i hi => ?_, fun q hq => ?_, fun i bytes hi => ?_,
      fun i hi => ?_⟩
    · rcases (hmem q).1 hq with rfl | ⟨hq, -⟩
      · exact hvalid
      · exact h.valid q hq
    · constructor
      · intro hnone
        rcases hfocused with hf | ⟨hf, hne⟩
        · exact absurd (hnone.symm.trans hf) (Option.some_ne_none _).symm
        · exact absurd (hf.symm.trans hnone) hne
      · intro hnil
        rw [hnil] at hnew
        cases hnew
    · rcases hfocused with hf | ⟨hf, -⟩
      · rw [hf] at hi
        exact (hids i).2 (.inl (Option.mem_some.1 hi).symm)
      · exact (hids i).2 (.inr (h.focused_mem i (hf ▸ hi)))
    · rcases (hmem q).1 hq with rfl | ⟨hq, hne⟩
      · exact hbacked title'
      · exact ((h.backed q hq).congr (hother q.id hne)).1
    · by_cases heq : i = pageId
      · exact htexts bytes (heq ▸ hi)
      · exact h.texts i bytes ((hother i heq).symm.trans hi)
    · rw [hids, not_or] at hi
      rw [hother i hi.1, h.unused i hi.2]
  refine ⟨hfiled, funext fun i => ?_⟩
  by_cases hi : i = pageId
  · subst hi
    rw [Function.update_self]
    exact (hfiled.shown_eq_some hnew).trans (congrArg some (hbacked title').content)
  · rw [Function.update_of_ne hi]
    refine h.shown_congr hnodup (fun q hq => ?_) (hother i hi)
    rw [hmem]
    constructor
    · rintro (rfl | ⟨hq', -⟩)
      · exact absurd hq.symm hi
      · exact hq'
    · exact fun hq' => .inr ⟨hq', hq ▸ hi⟩

variable (host) in
/-- A call that succeeds: the state behind it is sound, and shows what the snapshot shows. -/
def Answers (result : Directory × Except Failure SidePanelSnapshot)
    (shown : String → Option String) : Prop :=
  ∃ dir state snapshot, result = (dir, .ok snapshot) ∧ Sound host dir state ∧
    snapshot.Coherent ∧ snapshot.shown = shown ∧ (hydrateSnapshot host dir state).shown = shown

lemma Filed.answers (h : Filed host dir state) (hhost : host.Lawful) (moment : Moment) :
    Answers host (saveState host dir moment state,
      .ok (hydrateSnapshot host (saveState host dir moment state) state))
      (hydrateSnapshot host dir state).shown := by
  obtain ⟨hsound, hshown⟩ := h.save hhost moment
  exact ⟨_, _, _, rfl, hsound, hsound.coherent, hshown, hshown⟩

lemma Filed.combinedContent (h : Filed host dir state) (pageId content : String) (append : Bool) :
    combinedContent host dir pageId content append =
      .ok (if append then
        endLine ((readToString host dir (.own (pagePath pageId))).getD "") ++ content
      else content) := by
  rw [SidePanel.combinedContent]
  cases append with
  | false => rfl
  | true =>
    cases hfile : dir (pagePath pageId) with
    | none => simp [Directory.pathExists, readToString, hfile, endLine]
    | some bytes =>
      obtain ⟨text, rfl⟩ := h.texts pageId bytes hfile
      simp [Directory.pathExists, readToString, hfile]

lemma Sound.writePage (h : Sound host dir state) (hhost : host.Lawful)
    (hvalid : validatePageId pageId = .ok ()) (moment : Moment) (title : Option String)
    (content : String) (focus append : Bool) :
    Answers host (writePage host dir moment pageId title content focus append)
      (Function.update (hydrateSnapshot host dir state).shown pageId
        (some (if append then
          endLine ((readToString host dir (.own (pagePath pageId))).getD "") ++ content
        else content))) := by
  simp only [SidePanel.writePage, hvalid, h.loaded, h.combinedContent]
  generalize (if append then _ else content : String) = combined
  have hfile : dir.write (pagePath pageId) (utf8 combined) (pagePath pageId) =
      some (utf8 combined) := by
    rw [Directory.write_apply, if_pos rfl]
  have hread : readToString host (dir.write (pagePath pageId) (utf8 combined))
      (.own (pagePath pageId)) = some combined := by
    rw [readToString, hfile, Option.bind_some, readUtf8_utf8]
  have hother : ∀ i, i ≠ pageId →
      dir.write (pagePath pageId) (utf8 combined) (pagePath i) = dir (pagePath i) := by
    intro i hi
    rw [Directory.write_apply, if_neg (mt pagePath_inj.1 hi)]
  have htexts : ∀ bytes, dir.write (pagePath pageId) (utf8 combined) (pagePath pageId) =
      some bytes → ∃ text, bytes = utf8 text := by
    intro bytes hbytes
    exact ⟨combined, Option.some.inj (hbytes.symm.trans hfile)⟩
  have hbacked : ∀ title', Backed host (dir.write (pagePath pageId) (utf8 combined))
      ⟨pageId, title', .own (pagePath pageId), .managed, moment.nowMs⟩ :=
    fun _ => ⟨rfl, combined, hfile⟩
  obtain ⟨hfiled, hshown⟩ := h.toFiled.upsert hvalid hother htexts hbacked title focus
  rw [hread, Option.getD_some] at hshown
  exact hshown ▸ hfiled.answers hhost moment

/-- The content of a page that is loaded is set once more in the snapshot. -/
lemma shown_replaceF {snapshot : SidePanelSnapshot} (h : snapshot.Coherent) {content : String}
    (hshown : snapshot.shown pageId = some content) (revision : Nat) :
    let pages := snapshot.pages.replaceF fun page : SidePanelPage =>
      if page.id = pageId then some { page with content := content, updatedAtMs := revision }
      else none
    SidePanelSnapshot.Coherent { snapshot with pages := pages } ∧
      SidePanelSnapshot.shown { snapshot with pages := pages } = snapshot.shown := by
  intro pages
  have hids : pages.map (·.id) = snapshot.pages.map (·.id) := by
    refine KeyedList.map_replaceF fun a b hab => ?_
    split_ifs at hab
    cases hab
    rfl
  have hnodup : (pages.map (·.id)).Nodup := hids ▸ h.nodup
  refine ⟨⟨hnodup, ?_, hids ▸ h.focused_mem⟩, funext fun i => Option.ext fun text => ?_⟩
  · rw [h.focused_eq_none, ← List.map_eq_nil_iff, ← hids, List.map_eq_nil_iff]
  · obtain ⟨page, hpage, hcontent⟩ := Option.map_eq_some_iff.1 hshown
    obtain ⟨hmem, rfl⟩ := (KeyedList.find?_eq_some_iff h.nodup).1 hpage
    have hpages : ∀ q, q ∈ pages ↔
        q = { page with content := content, updatedAtMs := revision } ∨
          q ∈ snapshot.pages ∧ q.id ≠ page.id := fun q =>
      KeyedList.mem_replaceF (g := fun x : SidePanelPage =>
        { x with content := content, updatedAtMs := revision }) h.nodup hmem
    simp only [SidePanelSnapshot.shown, Option.map_eq_some_iff,
      KeyedList.find?_eq_some_iff hnodup, KeyedList.find?_eq_some_iff h.nodup, hpages]
    constructor
    · rintro ⟨q, ⟨rfl | ⟨hq, -⟩, hid⟩, htext⟩
      · exact ⟨page, ⟨hmem, hid⟩, hcontent.trans htext⟩
      · exact ⟨q, ⟨hq, hid⟩, htext⟩
    · rintro ⟨q, ⟨hq, hid⟩, htext⟩
      by_cases heq : q.id = page.id
      · obtain rfl : q = page := List.inj_on_of_nodup_map h.nodup hq hmem heq
        exact ⟨_, ⟨.inl rfl, hid⟩, hcontent.symm.trans htext⟩
      · exact ⟨q, ⟨.inr ⟨hq, heq⟩, hid⟩, htext⟩

lemma Sound.loadMarkdownFile (h : Sound host dir state) (hhost : host.Lawful)
    (hvalid : validatePageId pageId = .ok ()) {sourcePath content : String}
    (hmarkdown : validateMarkdownSourcePath sourcePath = .ok ())
    (hread : (host.files sourcePath).bind readUtf8 = some content) (moment : Moment)
    (title : Option String) (focus : Bool) :
    Answers host (loadMarkdownFile host dir moment pageId title sourcePath focus)
      (Function.update (hydrateSnapshot host dir state).shown pageId (some content)) := by
  have hcanonical : (host.files (host.canonicalize sourcePath)).bind readUtf8 = some content := by
    rw [hhost.files_canonicalize, hread]
  have hbacked : ∀ title', Backed host dir ⟨pageId, title',
      .outside (host.canonicalize sourcePath), .linkedFile, moment.nowMs⟩ := by
    intro title'
    obtain ⟨bytes, hbytes, htext⟩ := Option.bind_eq_some_iff.1 hcanonical
    exact ⟨_, content, rfl, hbytes.trans (congrArg some (readUtf8_eq_some.1 htext))⟩
  obtain ⟨hfiled, hshown⟩ := h.toFiled.upsert hvalid (fun _ _ => rfl) (h.texts pageId) hbacked
    title focus
  obtain ⟨hsound, hsaved⟩ := hfiled.save hhost moment
  rw [readToString, hcanonical, Option.getD_some] at hshown
  have hloaded := congrFun (hsaved.trans hshown) pageId
  rw [Function.update_self] at hloaded
  obtain ⟨hcoherent, hreplaced⟩ := shown_replaceF hsound.coherent hloaded
    (host.linkedFileRevision (.outside (host.canonicalize sourcePath)))
  simp only [SidePanel.loadMarkdownFile, hvalid, hmarkdown, readToString, hread, h.loaded]
  exact ⟨_, _, _, rfl, hsound, hcoherent, hreplaced.trans (hsaved.trans hshown),
    hsaved.trans hshown⟩

lemma Sound.focusPage (h : Sound host dir state) (hhost : host.Lawful)
    (hvalid : validatePageId pageId = .ok ()) (hpage : pageId ∈ state.pages.map (·.id))
    (moment : Moment) :
    Answers host (focusPage host dir moment pageId) (hydrateSnapshot host dir state).shown := by
  have hany : state.pages.any (·.id = pageId) = true := by simpa using hpage
  have hfiled : Filed host dir { state with focusedPageId := some pageId } := by
    refine ⟨h.nodup, h.valid, ?_, fun i hi => ?_, h.backed, h.texts, h.unused⟩
    · refine iff_of_false (Option.some_ne_none _) fun hnil => ?_
      rw [hnil] at hpage
      cases hpage
    · exact Option.mem_some.1 hi ▸ hpage
  simp only [SidePanel.focusPage, hvalid, h.loaded, hany, if_true]
  exact hfiled.answers hhost moment

lemma foldl_moreRecent (pages : List PersistedSidePanelPage)
    (best : Option PersistedSidePanelPage) :
    (pages.foldl moreRecent best = none ↔ best = none ∧ pages = []) ∧
      ∀ page ∈ pages.foldl moreRecent best, page ∈ best ∨ page ∈ pages := by
  induction pages generalizing best with
  | nil => simp
  | cons page pages ih =>
    have hnext : moreRecent best page = some page ∨ moreRecent best page = best ∧ best ≠ none := by
      cases best with
      | none => exact .inl rfl
      | some best =>
        rw [moreRecent]
        split_ifs
        · exact .inl rfl
        · exact .inr ⟨rfl, Option.some_ne_none _⟩
    obtain ⟨hnone, hmem⟩ := ih (moreRecent best page)
    rw [List.foldl_cons]
    constructor
    · refine iff_of_false (fun hfold => ?_) (fun hnil => List.cons_ne_nil _ _ hnil.2)
      rcases hnext with heq | ⟨heq, hne⟩
      · exact Option.some_ne_none _ (heq.symm.trans (hnone.1 hfold).1)
      · exact hne (heq.symm.trans (hnone.1 hfold).1)
    · intro latest hlatest
      rcases hmem latest hlatest with hbest | hpages
      · rcases hnext with heq | ⟨heq, -⟩
        · rw [heq] at hbest
          exact .inr (Option.mem_some.1 hbest ▸ List.mem_cons_self)
        · exact .inl (heq ▸ hbest)
      · exact .inr (List.mem_cons_of_mem _ hpages)

/-- A page is deleted: its record and its file are gone, and nothing else is. -/
lemma Filed.delete (h : Filed host dir state) (pageId : String) (focusedPageId : Option String)
    (hnone : focusedPageId = none ↔ state.pages.filter (·.id ≠ pageId) = [])
    (hmem : ∀ i ∈ focusedPageId, i ∈ (state.pages.filter (·.id ≠ pageId)).map (·.id)) :
    let state' : PersistedSidePanelState := ⟨focusedPageId, state.pages.filter (·.id ≠ pageId)⟩
    Filed host (dir.remove (pagePath pageId)) state' ∧
      (hydrateSnapshot host (dir.remove (pagePath pageId)) state').shown =
        Function.update (hydrateSnapshot host dir state).shown pageId none := by
  intro state'
  have hpages : ∀ q, q ∈ state'.pages ↔ q ∈ state.pages ∧ q.id ≠ pageId := by
    simp [state']
  have hnodup : (state'.pages.map (·.id)).Nodup :=
    h.nodup.sublist (List.filter_sublist.map _)
  have hgone : pageId ∉ state'.pages.map (·.id) := by
    simp [state']
  have hdir : ∀ i, i ≠ pageId → dir.remove (pagePath pageId) (pagePath i) = dir (pagePath i) :=
    fun i hi => Function.update_of_ne (mt pagePath_inj.1 hi) _ _
  have hremoved : dir.remove (pagePath pageId) (pagePath pageId) = none :=
    Function.update_self _ _ _
  constructor
  · refine ⟨hnodup, fun q hq => h.valid q ((hpages q).1 hq).1, hnone, hmem, fun q hq => ?_,
      fun i bytes hi => ?_, fun i hi => ?_⟩
    · obtain ⟨hq, hne⟩ := (hpages q).1 hq
      exact ((h.backed q hq).congr (hdir q.id hne)).1
    · by_cases heq : i = pageId
      · subst heq
        exact absurd (hremoved.symm.trans hi) (Option.some_ne_none _).symm
      · exact h.texts i bytes ((hdir i heq).symm.trans hi)
    · by_cases heq : i = pageId
      · exact heq ▸ hremoved
      · rw [hdir i heq]
        refine h.unused i fun hids => hi ?_
        obtain ⟨q, hq, rfl⟩ := List.mem_map.1 hids
        exact List.mem_map_of_mem ((hpages q).2 ⟨hq, heq⟩)
  · funext i
    by_cases hi : i = pageId
    · subst hi
      rw [Function.update_self]
      exact shown_eq_none.2 hgone
    · rw [Function.update_of_ne hi]
      refine h.shown_congr hnodup (fun q hq => ?_) (hdir i hi)
      rw [hpages, and_iff_left (hq ▸ hi)]

lemma Sound.deletePage (h : Sound host dir state) (hhost : host.Lawful)
    (hvalid : validatePageId pageId = .ok ()) (hpage : pageId ∈ state.pages.map (·.id))
    (moment : Moment) :
    Answers host (deletePage host dir moment pageId)
      (Function.update (hydrateSnapshot host dir state).shown pageId none) := by
  obtain ⟨gone, hgone, hid⟩ := List.mem_map.1 hpage
  have hlength : (state.pages.filter (·.id ≠ pageId)).length ≠ state.pages.length := by
    intro hlength
    have hall := List.length_filter_eq_length_iff.1 hlength gone hgone
    simp [hid] at hall
  have hstays : ∀ i ∈ state.focusedPageId, i ≠ pageId →
      i ∈ (state.pages.filter (·.id ≠ pageId)).map (·.id) := by
    intro i hi hne
    obtain ⟨q, hq, rfl⟩ := List.mem_map.1 (h.focused_mem i hi)
    exact List.mem_map_of_mem (List.mem_filter.2 ⟨hq, by simpa using hne⟩)
  obtain ⟨hrecent, hrecentMem⟩ := foldl_moreRecent (state.pages.filter (·.id ≠ pageId)) none
  have hnone : (if state.focusedPageId = some pageId then
      (mostRecent (state.pages.filter (·.id ≠ pageId))).map (·.id)
      else state.focusedPageId) = none ↔ state.pages.filter (·.id ≠ pageId) = [] := by
    split_ifs with hfocused
    · rw [Option.map_eq_none_iff, mostRecent, hrecent, and_iff_right rfl]
    · constructor
      · intro hnone
        rw [h.focused_eq_none.1 hnone]
        rfl
      · intro hnil
        by_contra hsome
        obtain ⟨i, hi⟩ := Option.ne_none_iff_exists'.1 hsome
        have hmem := hstays i hi fun heq => hfocused (heq ▸ hi)
        rw [hnil] at hmem
        cases hmem
  have hmem : ∀ i ∈ (if state.focusedPageId = some pageId then
      (mostRecent (state.pages.filter (·.id ≠ pageId))).map (·.id) else state.focusedPageId),
      i ∈ (state.pages.filter (·.id ≠ pageId)).map (·.id) := by
    intro i hi
    split_ifs at hi with hfocused
    · obtain ⟨page, hrecentPage, rfl⟩ := Option.map_eq_some_iff.1 hi
      exact List.mem_map_of_mem ((hrecentMem page hrecentPage).resolve_left (Option.not_mem_none _))
    · exact hstays i hi fun heq => hfocused (heq ▸ hi)
  obtain ⟨hfiled, hshown⟩ := h.toFiled.delete pageId _ hnone hmem
  simp only [SidePanel.deletePage, hvalid, h.loaded, hlength, if_false]
  exact hshown ▸ hfiled.answers hhost moment

/-! ### Calls behave -/

/-- A call that is refused fails, and nothing is changed. -/
lemma Sound.call_of_refused (h : Sound host dir state) {c : Call}
    (hrefused : c.Refused host (hydrateSnapshot host dir state).shown) (moment : Moment) :
    ∃ e, call host dir moment c = (dir, .error e) := by
  cases hvalid : validatePageId c.pageId with
  | error e =>
    refine ⟨e, ?_⟩
    cases c <;> simp only [Call.pageId] at hvalid <;>
      simp only [call, writeMarkdownPage, appendMarkdownPage, SidePanel.writePage,
        SidePanel.loadMarkdownFile, SidePanel.focusPage, SidePanel.deletePage, hvalid]
  | ok u =>
    replace hrefused := hrefused.resolve_left (not_not.2 hvalid)
    cases c with
    | writeMarkdownPage pageId title content focus => exact hrefused.elim
    | appendMarkdownPage pageId title content focus => exact hrefused.elim
    | loadMarkdownFile pageId title sourcePath focus =>
      simp only [Call.pageId] at hvalid
      simp only [call, SidePanel.loadMarkdownFile, hvalid]
      cases hmarkdown : validateMarkdownSourcePath sourcePath with
      | error e => exact ⟨e, rfl⟩
      | ok u =>
        have hread := hrefused.resolve_left (not_not.2 hmarkdown)
        simp only [readToString, hread]
        exact ⟨_, rfl⟩
    | focusPage pageId =>
      have hany : state.pages.any (·.id = pageId) = false := by
        simpa using shown_eq_none.1 hrefused
      simp only [Call.pageId] at hvalid
      simp only [call, SidePanel.focusPage, hvalid, h.loaded, hany]
      exact ⟨_, rfl⟩
    | deletePage pageId =>
      have hall : state.pages.filter (·.id ≠ pageId) = state.pages :=
        List.filter_eq_self.2 fun q hq => by
          simpa using fun heq : q.id = pageId =>
            shown_eq_none.1 hrefused (heq ▸ List.mem_map_of_mem hq)
      simp only [Call.pageId] at hvalid
      simp only [call, SidePanel.deletePage, hvalid, h.loaded, hall, if_true]
      exact ⟨_, rfl⟩

/-- An append shows what it should where it goes on from what is shown. -/
lemma Sound.append_iff (h : Sound host dir state) {content : String} :
    Function.update (hydrateSnapshot host dir state).shown pageId
        (some (endLine ((readToString host dir (.own (pagePath pageId))).getD "") ++ content)) =
      Function.update (hydrateSnapshot host dir state).shown pageId
        (some (endLine (((hydrateSnapshot host dir state).shown pageId).getD "") ++ content)) ↔
    ∀ shown ∈ (hydrateSnapshot host dir state).shown pageId,
      endLine ((readToString host dir (.own (pagePath pageId))).getD "") = endLine shown := by
  rw [(Function.update_injective _ _).eq_iff, Option.some.injEq, String.append_left_inj]
  cases hshown : (hydrateSnapshot host dir state).shown pageId with
  | none =>
    have hunused := h.unused pageId (shown_eq_none.1 hshown)
    simp [readToString, hunused]
  | some shown => simp

/-- A call that is not refused answers; an append alone may show something else than it should. -/
lemma Sound.call_of_not_refused (h : Sound host dir state) (hhost : host.Lawful) {c : Call}
    (hnot : ¬c.Refused host (hydrateSnapshot host dir state).shown) (moment : Moment) :
    ∃ shown, Answers host (call host dir moment c) shown ∧
      (shown = c.effect host (hydrateSnapshot host dir state).shown ↔
        AppendsToShown host dir (moment, c)) := by
  obtain ⟨hvalid, hnot⟩ := not_or.1 hnot
  replace hvalid := not_not.1 hvalid
  cases c with
  | writeMarkdownPage pageId title content focus =>
    refine ⟨_, h.writePage hhost hvalid moment title content focus false, ?_⟩
    exact Iff.intro (fun _ => trivial) fun _ => rfl
  | appendMarkdownPage pageId title content focus =>
    refine ⟨_, h.writePage hhost hvalid moment title content focus true, ?_⟩
    simp only [AppendsToShown, h.snapshotForSession, Prod.mk.injEq, Except.ok.injEq, true_and,
      forall_eq']
    exact h.append_iff
  | loadMarkdownFile pageId title sourcePath focus =>
    obtain ⟨hmarkdown, hread⟩ := not_or.1 hnot
    obtain ⟨content, hread⟩ := Option.ne_none_iff_exists'.1 hread
    refine ⟨_, h.loadMarkdownFile hhost hvalid (not_not.1 hmarkdown) hread moment title focus, ?_⟩
    refine Iff.intro (fun _ => trivial) fun _ => ?_
    rw [Call.effect, hread]
    rfl
  | focusPage pageId =>
    have hpage := not_not.1 (mt shown_eq_none.2 hnot)
    refine ⟨_, h.focusPage hhost hvalid hpage moment, ?_⟩
    exact Iff.intro (fun _ => trivial) fun _ => rfl
  | deletePage pageId =>
    have hpage := not_not.1 (mt shown_eq_none.2 hnot)
    refine ⟨_, h.deletePage hhost hvalid hpage moment, ?_⟩
    exact Iff.intro (fun _ => trivial) fun _ => rfl

/-- A page whose id is not accepted is not there. -/
lemma Sound.appendsToShown_of_refused (h : Sound host dir state) {c : Call}
    (hrefused : c.Refused host (hydrateSnapshot host dir state).shown) :
    AppendsToShown host dir (moment, c) := by
  cases c with
  | appendMarkdownPage pageId title content focus =>
    intro old hold shown hshown
    cases hold.symm.trans h.snapshotForSession
    have hne : (hydrateSnapshot host dir state).shown pageId ≠ none := by
      rw [Option.mem_def.1 hshown]
      exact Option.some_ne_none _
    obtain ⟨page, hpage, rfl⟩ := List.mem_map.1 (not_not.1 (mt shown_eq_none.2 hne))
    exact absurd (h.valid page hpage) (hrefused.resolve_right id)
  | _ => trivial

lemma Sound.call_behaves_iff (h : Sound host dir state) (hhost : host.Lawful) (x : Moment × Call) :
    Behaves host dir x ↔ AppendsToShown host dir x := by
  obtain ⟨moment, c⟩ := x
  by_cases hrefused : c.Refused host (hydrateSnapshot host dir state).shown
  · obtain ⟨e, he⟩ := h.call_of_refused hrefused moment
    refine iff_of_true ⟨_, h.snapshotForSession, ?_⟩ (h.appendsToShown_of_refused hrefused)
    rw [he]
    exact ⟨hrefused, rfl⟩
  · obtain ⟨shown, ⟨dir', state', snapshot, hcall, hsound, hcoherent, hshown, hshown'⟩, hiff⟩ :=
      h.call_of_not_refused hhost hrefused moment
    rw [← hiff]
    constructor
    · rintro ⟨old, hold, hbehaves⟩
      cases hold.symm.trans h.snapshotForSession
      rw [hcall] at hbehaves
      exact hshown.symm.trans hbehaves.2.2.1
    · intro heq
      refine ⟨_, h.snapshotForSession, ?_⟩
      rw [hcall]
      exact ⟨hrefused, hcoherent, hshown.trans heq, _, hsound.snapshotForSession,
        hshown'.trans hshown.symm⟩

lemma Sound.step (h : Sound host dir state) (hhost : host.Lawful) {x : Moment × Call}
    (hstep : step host dir x = some dir') : ∃ state', Sound host dir' state' := by
  obtain ⟨moment, c⟩ := x
  cases hstep
  by_cases hrefused : c.Refused host (hydrateSnapshot host dir state).shown
  · obtain ⟨e, he⟩ := h.call_of_refused hrefused moment
    rw [he]
    exact ⟨state, h⟩
  · obtain ⟨shown, ⟨dir', state', snapshot, hcall, hsound, -⟩, -⟩ :=
      h.call_of_not_refused hhost hrefused moment
    rw [hcall]
    exact ⟨state', hsound⟩

/-- In a run of calls all behave like calls on a map of documents just where all appends go on from
what is shown. -/
theorem behaves_iff (hhost : host.Lawful) (calls : List (Moment × Call)) :
    Guarded (SidePanel.step host) (Behaves host) emptyDir calls ↔
      Guarded (SidePanel.step host) (AppendsToShown host) emptyDir calls := by
  refine guarded_congr_of_invariant (I := fun dir => ∃ state, Sound host dir state) ?_ ?_
    ⟨_, sound_emptyDir⟩
  · rintro dir x dir' ⟨state, h⟩ hstep
    exact h.step hhost hstep
  · rintro dir x ⟨state, h⟩
    exact h.call_behaves_iff hhost x

/-- A load leaves the files of all pages as they are. -/
lemma Sound.loadMarkdownFile_pagePath (h : Sound host dir state) (moment : Moment)
    (title : Option String) (sourcePath : String) (focus : Bool) (i : String) :
    (SidePanel.loadMarkdownFile host dir moment pageId title sourcePath focus).1 (pagePath i) =
      dir (pagePath i) := by
  rw [SidePanel.loadMarkdownFile, h.loaded]
  split
  · rfl
  · rfl
  · split
    · rfl
    · exact saveState_pagePath

end

/-! ### Runs -/

/-- One file lies outside the directory. -/
noncomputable def guideHost : Host where
  sessionDir := "/home/user/.jcode/side_panel/session"
  codec := .unary PersistedSidePanelState
  files path := if path = "/docs/guide.md" then some (utf8 "# Guide") else none
  canonicalize path := path
  linkedFileRevision _ := 0

lemma guideHost_lawful : guideHost.Lawful where
  lossless := TextCodec.unary_losslessOn _
  files_canonicalize _ := rfl

def noon : Moment := ⟨43200000, 1, 7⟩

/-- Notes are begun, a file is loaded, and its page is deleted. -/
def notesAndGuide : List (Moment × Call) :=
  [(noon, .appendMarkdownPage "notes" none "- item" true),
    (noon, .loadMarkdownFile "guide" (some "Guide") "/docs/guide.md" false),
    (noon, .writeMarkdownPage "notes" none "# Notes" false),
    (noon, .deletePage "guide")]

theorem behaves_notesAndGuide :
    Guarded (step guideHost) (Behaves guideHost) emptyDir notesAndGuide := by
  refine (behaves_iff guideHost_lawful notesAndGuide).2 ?_
  refine ⟨fun old hold shown hshown => ?_, fun _ _ => ⟨trivial, fun _ _ => ⟨trivial, fun _ _ =>
    ⟨trivial, fun _ _ => trivial⟩⟩⟩⟩
  cases hold.symm.trans sound_emptyDir.snapshotForSession
  cases hshown

/-- A file is loaded, and something is appended to its page. -/
def appendToGuide : List (Moment × Call) :=
  [(noon, .loadMarkdownFile "guide" (some "Guide") "/docs/guide.md" true),
    (noon, .appendMarkdownPage "guide" none "more" true)]

/-- The page shows what was appended alone. -/
theorem not_behaves_appendToGuide :
    ∃ dir, exec (step guideHost) emptyDir [(noon, .loadMarkdownFile "guide" (some "Guide")
        "/docs/guide.md" true)] = some dir ∧
      (∃ loaded, snapshotForSession guideHost dir = (dir, .ok loaded) ∧
        loaded.shown "guide" = some "# Guide") ∧
      (∃ dir' snapshot, appendMarkdownPage guideHost dir noon "guide" none "more" true =
        (dir', .ok snapshot) ∧ snapshot.shown "guide" = some "more") ∧
      ¬Guarded (step guideHost) (Behaves guideHost) emptyDir appendToGuide := by
  have hread : (guideHost.files "/docs/guide.md").bind readUtf8 = some "# Guide" :=
    readUtf8_utf8 _
  obtain ⟨dir, state, snapshot, hload, hsound, -, -, hshown⟩ :
      Answers guideHost (loadMarkdownFile guideHost emptyDir noon "guide" (some "Guide")
        "/docs/guide.md" true)
        (Function.update (hydrateSnapshot guideHost emptyDir .default).shown "guide"
          (some "# Guide")) :=
    sound_emptyDir.loadMarkdownFile guideHost_lawful rfl rfl hread noon (some "Guide") true
  replace hshown := congrFun hshown "guide"
  rw [Function.update_self] at hshown
  have hown : readToString guideHost dir (.own (pagePath "guide")) = none := by
    have hframe : (loadMarkdownFile guideHost emptyDir noon "guide" (some "Guide")
        "/docs/guide.md" true).1 (pagePath "guide") = emptyDir (pagePath "guide") :=
      sound_emptyDir.loadMarkdownFile_pagePath noon (some "Guide") "/docs/guide.md" true "guide"
    rw [hload] at hframe
    exact congrArg (Option.bind · readUtf8) hframe
  have hstep : step guideHost emptyDir
      (noon, .loadMarkdownFile "guide" (some "Guide") "/docs/guide.md" true) = some dir :=
    congrArg (fun result => some (Prod.fst result)) hload
  refine ⟨dir, (exec_singleton).trans hstep, ⟨_, hsound.snapshotForSession, hshown⟩, ?_,
    fun hguarded => ?_⟩
  · obtain ⟨dir', state', snapshot', happend, -, -, hshown', -⟩ :=
      hsound.writePage guideHost_lawful (rfl : validatePageId "guide" = .ok ()) noon none "more"
        true true
    refine ⟨dir', snapshot', happend, ?_⟩
    rw [hshown', Function.update_self, hown]
    rfl
  · have hbehaves := (hguarded.2 dir hstep).1
    have happends := (hsound.call_behaves_iff guideHost_lawful _).1 hbehaves
    have hlines := happends _ hsound.snapshotForSession "# Guide" hshown
    rw [hown] at hlines
    revert hlines
    decide

end SidePanel

end Jcode
