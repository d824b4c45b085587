import Jcode.Foundation.Codec
import Jcode.Storage
import Jcode.Swarm.Member

/-!
# Side panel pages

The pages of a session lie in a directory of its own: an index with a record for each page, and a
file for each page that is written there. A page that was loaded shows a file outside the directory
instead; its record says which.
-/

namespace Jcode

namespace SidePanel

deriving instance Countable for FileName

/-! ### Records and snapshots -/

inductive SidePanelPageSource
  | managed
  | linkedFile
  | ephemeral
deriving DecidableEq, Countable

/-- A file in the directory of the session, or one outside it. -/
inductive PagePath
  | own (name : FileName)
  | outside (path : String)
deriving DecidableEq, Countable

structure PersistedSidePanelPage where
  id : String
  title : String
  filePath : PagePath
  source : SidePanelPageSource
  updatedAtMs : Nat
deriving DecidableEq, Countable

structure PersistedSidePanelState where
  focusedPageId : Option String
  pages : List PersistedSidePanelPage
deriving DecidableEq, Countable

def PersistedSidePanelState.default : PersistedSidePanelState := ⟨none, []⟩

structure SidePanelPage where
  id : String
  title : String
  filePath : PagePath
  source : SidePanelPageSource
  content : String
  updatedAtMs : Nat
deriving DecidableEq

structure SidePanelSnapshot where
  focusedPageId : Option String
  pages : List SidePanelPage
deriving DecidableEq

/-! ### Checks -/

/-- `Path::components().count()`: a dot counts at the start alone. -/
def componentCount (path : List Char) : Nat :=
  let pieces := path.splitOn '/'
  (if path.head? = some '/' then 1 else 0) +
    (if pieces.head? = some ['.'] then 1 else 0) +
      pieces.countP fun piece => piece ≠ [] ∧ piece ≠ ['.']

/-- The text of an error, unless a file operation or the decoder has made it. -/
abbrev Failure := Option String

def bail {α : Type} (text : String) : Except Failure α := .error (some text)

def validatePageId (pageId : String) : Except Failure Unit :=
  let pageId := trim pageId
  if pageId = "" then bail "page_id cannot be empty"
  else if pageId.utf8ByteSize > 80 then bail "page_id is too long (max 80 characters)"
  else if ¬pageId.toList.all fun ch => ch.isAlphanum || ch ∈ ['_', '-', '.'] then
    bail "page_id must use only ASCII letters, digits, underscore, dash, or dot"
  else if ['.', '.'] <:+: pageId.toList then bail "page_id cannot contain '..'"
  else if componentCount pageId.toList ≠ 1 then bail "page_id cannot contain path separators"
  else .ok ()

/-- `Path::extension` of the last component: what is behind its last dot, where that is not its
first character. -/
def pathExtension (path : List Char) : Option (List Char) :=
  let pieces := (path.splitOn '/').filter fun piece => piece ≠ [] ∧ piece ≠ ['.']
  match pieces.getLast? with
  | none => none
  | some name =>
    let parts := name.splitOn '.'
    if name = ['.', '.'] ∨ parts.length < 2 ∨ parts.dropLast = [[]] then none else parts.getLast?

def markdownExtensions : List (List Char) :=
  ["md".toList, "markdown".toList, "mdown".toList, "mkd".toList, "mkdn".toList]

def validateMarkdownSourcePath (path : String) : Except Failure Unit :=
  let isMarkdown : Bool :=
    match (pathExtension path.toList).map (List.map Char.toLower) with
    | some ext => ext ∈ markdownExtensions
    | none => false
  if isMarkdown then .ok ()
  else bail ("side_panel load only supports markdown files " ++
    "(.md, .markdown, .mdown, .mkd, .mkdn): " ++ path)

/-! ### Files -/

/-- The path of the directory, what lies outside it, and how the index is written. -/
structure Host where
  sessionDir : String
  codec : TextCodec PersistedSidePanelState
  files : String → Option Bytes
  canonicalize : String → String
  linkedFileRevision : PagePath → Nat

/-- The index can be read back, and a path names the file that its canonical form names. -/
structure Host.Lawful (host : Host) : Prop where
  lossless : host.codec.LosslessOn fun _ => True
  files_canonicalize : ∀ path, host.files (host.canonicalize path) = host.files path

def pagePath (pageId : String) : FileName := ⟨pageId, "md"⟩

def stateFile : FileName := ⟨"index", "json"⟩

/-- When a call is made, and what is random in it. -/
structure Moment where
  nowMs : Nat
  pid : Nat
  nonce : Nat

variable (host : Host) (dir : Directory) (moment : Moment)

/-- `read_to_string` -/
def readToString : PagePath → Option String
  | .own name => (dir name).bind readUtf8
  | .outside path => (host.files path).bind readUtf8

def loadState : Option PersistedSidePanelState × Directory :=
  if dir.pathExists stateFile then readJson host.codec.decode dir stateFile
  else (some .default, dir)

def saveState (state : PersistedSidePanelState) : Directory :=
  writeBytesInner dir stateFile (tmpExtension moment.pid moment.nonce)
    (utf8 (host.codec.encode state))

/-! ### Operations -/

def hydratePage (page : PersistedSidePanelPage) : SidePanelPage where
  id := page.id
  title := page.title
  filePath := page.filePath
  source := page.source
  content :=
    if page.source = .ephemeral then "" else (readToString host dir page.filePath).getD ""
  updatedAtMs :=
    match page.source with
    | .linkedFile => host.linkedFileRevision page.filePath
    | .managed | .ephemeral => page.updatedAtMs

def hydrateSnapshot (state : PersistedSidePanelState) : SidePanelSnapshot where
  focusedPageId := state.focusedPageId
  pages := state.pages.map (hydratePage host dir)

/-- The order of the index: the latest first, by id where they are of one time. -/
def pageBefore (a b : PersistedSidePanelPage) : Bool :=
  b.updatedAtMs < a.updatedAtMs ∨ a.updatedAtMs = b.updatedAtMs ∧ a.id ≤ b.id

def upsertPageRecord (state : PersistedSidePanelState) (pageId : String) (title : Option String)
    (filePath : PagePath) (source : SidePanelPageSource) (updatedAtMs : Nat) (focus : Bool) :
    PersistedSidePanelState :=
  let title := (title.map trim).filter (· ≠ "")
  let pages : List PersistedSidePanelPage :=
    match state.pages.find? (·.id = pageId) with
    | some _ =>
      state.pages.replaceF fun existing : PersistedSidePanelPage =>
        if existing.id = pageId then
          some { existing with
            title := title.getD existing.title
            filePath := filePath
            source := source
            updatedAtMs := updatedAtMs }
        else none
    | none => state.pages ++ [⟨pageId, title.getD pageId, filePath, source, updatedAtMs⟩]
  { focusedPageId := if focus ∨ state.focusedPageId = none then some pageId else state.focusedPageId
    pages := pages.mergeSort pageBefore }

/-- A text to which more is appended ends with a line break. -/
def endLine (existing : String) : String :=
  if existing ≠ "" ∧ existing.toList.getLast? ≠ some '\n' then existing ++ "\n" else existing

/-- What is written to the file of a page. -/
def combinedContent (pageId content : String) (append : Bool) : Except Failure String :=
  if append ∧ dir.pathExists (pagePath pageId) then
    match readToString host dir (.own (pagePath pageId)) with
    | some existing => .ok (endLine existing ++ content)
    | none => bail ("failed to read " ++ host.sessionDir ++ "/" ++ pageId ++ ".md")
  else .ok content

def writePage (pageId : String) (title : Option String) (content : String) (focus append : Bool) :
    Directory × Except Failure SidePanelSnapshot :=
  match validatePageId pageId with
  | .error e => (dir, .error e)
  | .ok _ =>
    match loadState host dir with
    | (none, dir) => (dir, .error none)
    | (some state, dir) =>
      match combinedContent host dir pageId content append with
      | .error e => (dir, .error e)
      | .ok combined =>
        let dir := dir.write (pagePath pageId) (utf8 combined)
        let state := upsertPageRecord state pageId title (.own (pagePath pageId)) .managed
          moment.nowMs focus
        let dir := saveState host dir moment state
        (dir, .ok (hydrateSnapshot host dir state))

def writeMarkdownPage (pageId : String) (title : Option String) (content : String) (focus : Bool) :
    Directory × Except Failure SidePanelSnapshot :=
  writePage host dir moment pageId title content focus false

def appendMarkdownPage (pageId : String) (title : Option String) (content : String)
    (focus : Bool) : Directory × Except Failure SidePanelSnapshot :=
  writePage host dir moment pageId title content focus true

def loadMarkdownFile (pageId : String) (title : Option String) (sourcePath : String)
    (focus : Bool) : Directory × Except Failure SidePanelSnapshot :=
  match validatePageId pageId, validateMarkdownSourcePath sourcePath with
  | .error e, _ => (dir, .error e)
  | .ok _, .error e => (dir, .error e)
  | .ok _, .ok _ =>
    match readToString host dir (.outside sourcePath) with
    | none => (dir, bail ("failed to read " ++ sourcePath))
    | some content =>
      let sourcePath := PagePath.outside (host.canonicalize sourcePath)
      let contentRevision := host.linkedFileRevision sourcePath
      match loadState host dir with
      | (none, dir) => (dir, .error none)
      | (some state, dir) =>
        let state := upsertPageRecord state pageId title sourcePath .linkedFile moment.nowMs focus
        let dir := saveState host dir moment state
        let snapshot := hydrateSnapshot host dir state
        (dir, .ok { snapshot with
          pages := snapshot.pages.replaceF fun page : SidePanelPage =>
            if page.id = pageId then
              some { page with content := content, updatedAtMs := contentRevision }
            else none })

def focusPage (pageId : String) : Directory × Except Failure SidePanelSnapshot :=
  match validatePageId pageId with
  | .error e => (dir, .error e)
  | .ok _ =>
    match loadState host dir with
    | (none, dir) => (dir, .error none)
    | (some state, dir) =>
      if state.pages.any (·.id = pageId) then
        let state := { state with focusedPageId := some pageId }
        let dir := saveState host dir moment state
        (dir, .ok (hydrateSnapshot host dir state))
      else (dir, bail ("Side panel page not found: " ++ pageId))

/-- `max_by_key`: of several the last one. -/
def moreRecent (best : Option PersistedSidePanelPage) (page : PersistedSidePanelPage) :
    Option PersistedSidePanelPage :=
  match best with
  | none => some page
  | some best => if best.updatedAtMs ≤ page.updatedAtMs then some page else some best

def mostRecent (pages : List PersistedSidePanelPage) : Option PersistedSidePanelPage :=
  pages.foldl moreRecent none

def deletePage (pageId : String) : Directory × Except Failure SidePanelSnapshot :=
  match validatePageId pageId with
  | .error e => (dir, .error e)
  | .ok _ =>
    match loadState host dir with
    | (none, dir) => (dir, .error none)
    | (some state, dir) =>
      let pages := state.pages.filter (·.id ≠ pageId)
      if pages.length = state.pages.length then
        (dir, bail ("Side panel page not found: " ++ pageId))
      else
        let dir := dir.remove (pagePath pageId)
        let focusedPageId :=
          if state.focusedPageId = some pageId then (mostRecent pages).map (·.id)
          else state.focusedPageId
        let state : PersistedSidePanelState := ⟨focusedPageId, pages⟩
        let dir := saveState host dir moment state
        (dir, .ok (hydrateSnapshot host dir state))

def snapshotForSession : Directory × Except Failure SidePanelSnapshot :=
  match loadState host dir with
  | (none, dir) => (dir, .error none)
  | (some state, dir) => (dir, .ok (hydrateSnapshot host dir state))

end SidePanel

end Jcode
