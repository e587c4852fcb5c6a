import CastApp.Media.Extension
import CastApp.Media.HeadRequest
import CastApp.Runtime.Supervisor

/-!
# One content type per name

The content type of a file is looked up four times: for the head of a local
file, for the head of a file on a share, and for the `LOAD` of either.  The
local lookups go by `Path::extension`, that of the share by the last dot of the
decoded path, and the `LOAD` of a share by the last dot of the path as the URL
has it.

* `servedAs_file_iff`, `servedAs_share_iff`, `announced_iff` — the content type
  that is served and the one that is announced.
* `exists_stem_of_listed` — an extension of the table at the end of the path of a
  URL is that of the name.
* **`content_type_agrees_iff`** — the four are one for every name but three
  kinds: a leading dot and an extension, an extension as the whole name in the
  root of a share, and an extension that is escaped in the URL.
-/

namespace CastApp.Runtime.ContentTypes

open CastApp.Media
open CastApp.Media.Extension
open CastApp.Media.HeadRequest
open CastApp.Media.MediaServer
open CastApp.Media.Mime
open CastApp.Media.Serving
open CastApp.Media.SmbSource (UrlParser Url fileExtension isSmbUrl)
open CastApp.Runtime.Supervisor
open CastApp.State
open CastApp.Util.Text
open CastApp.Verified.Coroutine
open CastApp.Verified.History

variable (parseUrl : UrlParser)

/-! ## What a receiver is told -/

/-- The source can be opened: the file and its size, or the file on a share. -/
def Opens (st : SourceState) : ActiveSource → Prop
  | .file path => st.file path = .ok () ∧ ∃ size, st.fileSize = .ok size
  | .url url => ∃ share size, SmbSource.SmbUrl.parse parseUrl url = .ok share ∧
      st.share share = .ok size
  | .screen _ => False

/-- A `GET` or a `HEAD` of `/stream` may be answered with this content type
while the source can be opened. -/
def ServedAs (source : ActiveSource) (mime : String) : Prop :=
  ∃ st headers method h head, (method = "GET" ∨ method = "HEAD") ∧ Opens parseUrl st source ∧
    Answered parseUrl (some source) st headers method h ∧ .head head ∈ effects h ∧
    head.headers.lookup "Content-Type" = some mime

/-- The path of a URL, if it parses. -/
def urlPath : UrlPath := fun raw =>
  match parseUrl raw with
  | .ok url => some url.path
  | .error _ => none

/-- `Play` may announce this content type for the source. -/
def Announced (source : ActiveSource) (mime : String) : Prop :=
  ∃ state ops o request, state.currentSource = some source ∧
    Exec (handleCommand (urlPath parseUrl) state .play) ops o ∧
    (⟨.cast (.load request), ()⟩ : Entry supervisorSig) ∈ ops ∧ request.contentType = mime

/-- One content type for a local file and for a file on a share, served and
announced. -/
def OneContentType (path raw : String) : Prop :=
  ∃ mime, (∀ other, ServedAs parseUrl (.file path) other ↔ other = mime) ∧
    (∀ other, ServedAs parseUrl (.url raw) other ↔ other = mime) ∧
    (∀ other, Announced parseUrl (.file path) other ↔ other = mime) ∧
    ∀ other, Announced parseUrl (.url raw) other ↔ other = mime

/-- The name of the file at this path of a share. -/
def NamedBy (filePath name : String) : Prop :=
  filePath = name ∨ ∃ dirs, filePath = dirs ++ "/" ++ name

/-- The names whose lookups disagree. -/
inductive Mislabelled (urlPath filePath : String) : String → Prop
  /-- To `Path::extension` a hidden file without an extension. -/
  | hidden {ext : String} (hListed : Listed ext) : Mislabelled urlPath filePath ("." ++ ext)
  /-- No dot anywhere in the path on the share. -/
  | bare {name : String} (hListed : Listed name) (hRoot : filePath = name) :
      Mislabelled urlPath filePath name
  /-- The dot or the extension is percent-encoded in the URL. -/
  | escaped {stem ext : String} (hListed : Listed ext) (hStem : stem ≠ "")
      (hUrl : ∀ front, urlPath ≠ front ++ "." ++ ext) :
      Mislabelled urlPath filePath (stem ++ "." ++ ext)

variable {parseUrl}

/-! ## The content type that is served -/

theorem headOf_contentType (mime : String) (size : Nat) (decision : Range.RangeDecision) :
    (LocalFile.headOf mime size decision).headers.lookup "Content-Type" = some mime := by
  cases decision <;> rfl

/-- A source with one head is served as what the head says. -/
theorem servedAs_iff {source : ActiveSource} {mime : String}
    (hHeads : ∀ st range, Opens parseUrl st source → Servable parseUrl st range (some source) ∧
      ∃ size, dueHeads parseUrl st range (some source) =
        [LocalFile.headOf mime size (Range.parseRange range size)])
    (hSome : ∃ st h, Opens parseUrl st source ∧
      Answered parseUrl (some source) st [] "HEAD" h) (other : String) :
    ServedAs parseUrl source other ↔ other = mime := by
  constructor
  · rintro ⟨st, headers, method, h, head, hMethod, hOpens, hAnswered, hHead, hType⟩
    obtain ⟨hServable, size, hDue⟩ := hHeads st (headers.lookup "range") hOpens
    obtain ⟨bodies, hEffects, -⟩ := answered_responds hMethod hServable hAnswered
    rw [hEffects, hDue] at hHead
    obtain rfl : head = LocalFile.headOf mime size _ := by simpa using hHead
    rw [headOf_contentType] at hType
    exact (Option.some.inj hType).symm
  · rintro rfl
    obtain ⟨st, h, hOpens, hAnswered⟩ := hSome
    obtain ⟨hServable, size, hDue⟩ := hHeads st (List.lookup "range" []) hOpens
    obtain ⟨bodies, hEffects, -⟩ := answered_responds (.inr rfl) hServable hAnswered
    have hHead : .head (LocalFile.headOf other size
        (Range.parseRange (List.lookup "range" []) size)) ∈ effects h := by
      rw [hEffects, hDue]
      exact List.mem_cons_self
    exact ⟨st, [], "HEAD", h, _, .inr rfl, hOpens, hAnswered, hHead, headOf_contentType ..⟩

/-- An empty file, on disk and on a share. -/
def emptyThere : SourceState :=
  { nothingThere with
    file := fun _ => .ok ()
    fileSize := .ok 0
    share := fun _ => .ok 0 }

theorem servedAs_file_iff (path other : String) :
    ServedAs parseUrl (.file path) other ↔ other = mimeForPath path := by
  refine servedAs_iff ?_ ?_ other
  · rintro st range ⟨hFile, size, hSize⟩
    refine ⟨trivial, size, ?_⟩
    show fileHeads st range path = _
    unfold fileHeads
    rw [hFile, hSize]
  · have hHead : "HEAD" = "GET" ∨ "HEAD" = "HEAD" := .inr rfl
    obtain ⟨trace, hRun, hOps⟩ := response_run parseUrl (some (.file path)) emptyThere [] hHead
    exact ⟨emptyThere, _, ⟨rfl, 0, rfl⟩, trace, _, hRun, trivial, hOps⟩

variable {raw : String} {url : Url} {share : SmbUrl}

theorem servedAs_share_iff (hSmb : isSmbUrl raw = true)
    (hShare : SmbSource.SmbUrl.parse parseUrl raw = .ok share) (other : String) :
    ServedAs parseUrl (.url raw) other ↔
      other = mimeForExtension (fileExtension share.filePath) := by
  refine servedAs_iff ?_ ?_ other
  · rintro st range ⟨opened, size, hOpened, hSize⟩
    rw [hShare] at hOpened
    cases hOpened
    refine ⟨?_, size, ?_⟩
    · show if isSmbUrl raw then _ else _
      rw [if_pos hSmb]
      intro opened hOpened
      rw [hShare] at hOpened
      cases hOpened
      exact ⟨size, hSize⟩
    · show (if isSmbUrl raw then _ else _) = _
      rw [if_pos hSmb]
      unfold shareHeads
      rw [hShare]
      dsimp only
      rw [hSize]
  · have hHead : "HEAD" = "GET" ∨ "HEAD" = "HEAD" := .inr rfl
    obtain ⟨trace, hRun, hOps⟩ := response_run parseUrl (some (.url raw)) emptyThere [] hHead
    have hEnd : (responseOps parseUrl (some (.url raw)) emptyThere [] "HEAD").2 =
        .value (.exit .done) := by
      unfold responseOps Handler.serveSource
      dsimp only
      rw [if_pos hSmb, SmbSource.serve, hShare]
      rfl
    rw [hEnd] at hRun
    exact ⟨emptyThere, _, ⟨share, 0, hShare, rfl⟩, trace, _, hRun, trivial, hOps⟩

/-! ## The content type that is announced -/

/-- What `Play` awaits: the port, and a `LOAD` once one is bound. -/
theorem play_exec_iff {state : SupervisorState} {source : ActiveSource}
    (hSource : state.currentSource = some source) {ops : List (Entry supervisorSig)}
    {o : Outcome supervisorSig SupervisorState} :
    Exec (handleCommand (urlPath parseUrl) state .play) ops o ↔
      o = .value state ∧
        (ops = [⟨.boundPort, (0 : UInt16)⟩] ∨ ∃ port : UInt16, port ≠ 0 ∧
          ops = [⟨.boundPort, port⟩, ⟨.cast (.load
            (loadOf (urlPath parseUrl) (streamUrl state.lanIp port) source)), ()⟩]) := by
  have hStep : Exec (handleCommand (urlPath parseUrl) state .play) ops o ↔
      ∃ (port : UInt16) (rest : List (Entry supervisorSig)),
        ops = ⟨.boundPort, port⟩ :: rest ∧
          Exec ((if port = 0 then pure () else ask (.cast (.load (loadOf (urlPath parseUrl)
            (streamUrl state.lanIp port) source)))) >>= fun _ => pure state) rest o := by
    unfold handleCommand play
    dsimp only
    rw [hSource]
    exact Iff.rfl
  rw [hStep]
  constructor
  · rintro ⟨port, rest, rfl, hRest⟩
    by_cases hPort : port = 0
    · rw [if_pos hPort] at hRest
      obtain ⟨rfl, rfl⟩ := hRest
      exact ⟨rfl, .inl (by rw [hPort])⟩
    · rw [if_neg hPort] at hRest
      obtain ⟨_, _, rfl, rfl, rfl⟩ := hRest
      exact ⟨rfl, .inr ⟨port, hPort, rfl⟩⟩
  · rintro ⟨rfl, rfl | ⟨port, hPort, rfl⟩⟩
    · refine ⟨0, [], rfl, ?_⟩
      rw [if_pos rfl]
      exact ⟨rfl, rfl⟩
    · refine ⟨port, _, rfl, ?_⟩
      rw [if_neg hPort]
      exact ⟨(), [], rfl, rfl, rfl⟩

/-- A supervisor with a source. -/
def showing (source : ActiveSource) : SupervisorState where
  screen := false
  mdnsTask := false
  lanIp := .v4 0
  proxyPort := 0
  wildcardConsented := false
  fallbackPending := false
  currentSource := some source
  lastVolume := 0
  muted := false

theorem announced_iff (source : ActiveSource) (other : String) :
    Announced parseUrl source other ↔
      other = (loadOf (urlPath parseUrl) "" source).contentType := by
  have hContent : ∀ contentId, (loadOf (urlPath parseUrl) contentId source).contentType =
      (loadOf (urlPath parseUrl) "" source).contentType := by
    intro contentId
    cases source <;> rfl
  constructor
  · rintro ⟨state, ops, o, request, hSource, hExec, hLoad, rfl⟩
    obtain ⟨-, rfl | ⟨port, -, rfl⟩⟩ := (play_exec_iff hSource).mp hExec
    · simp at hLoad
    · obtain rfl : request = loadOf (urlPath parseUrl) (streamUrl state.lanIp port) source := by
        simpa using hLoad
      exact hContent _
  · rintro rfl
    have hExec : Exec (handleCommand (urlPath parseUrl) (showing source) .play) _ _ :=
      (play_exec_iff rfl).mpr ⟨rfl, .inr ⟨8010, by decide, rfl⟩⟩
    exact ⟨showing source, _, _, _, rfl, hExec, List.mem_cons_of_mem _ List.mem_cons_self,
      hContent _⟩

theorem announced_share (hUrl : parseUrl raw = .ok url) :
    (loadOf (urlPath parseUrl) "" (.url raw)).contentType =
      mimeForExtension (fileExtension url.path) := by
  have hPath : (urlPath parseUrl raw).getD "" = url.path := by
    unfold urlPath
    rw [hUrl]
    rfl
  have hLast : ((url.path.splitOn ".").getLast?).getD "" = fileExtension url.path := by
    rw [splitOn_dot]
    unfold parts fileExtension
    rw [List.getLast?_map]
    cases (split '.' url.path.toList).getLast? <;> rfl
  show contentTypeForUrl (urlPath parseUrl) raw = _
  unfold contentTypeForUrl
  dsimp only
  rw [hPath, hLast]

/-! ## The end of a URL -/

variable {path name : String}

/-- A text that ends behind a slash and behind a dot. -/
theorem exists_stem {front name front' ext : String} (hSlash : '/' ∉ ext.toList)
    (h : front ++ "/" ++ name = front' ++ "." ++ ext) : ∃ stem, name = stem ++ "." ++ ext := by
  have hChars : front.toList ++ '/' :: name.toList = front'.toList ++ '.' :: ext.toList := by
    simpa using congrArg String.toList h
  rcases List.append_eq_append_iff.mp hChars with ⟨behind, hFront, hName⟩ | ⟨behind, hFront, hExt⟩
  · cases behind with
    | nil => cases hName
    | cons slash stem =>
        rw [List.cons_append] at hName
        refine ⟨String.ofList stem, ?_⟩
        rw [← String.toList_inj, (List.cons.inj hName).2]
        simp
  · exfalso
    have hMem : '/' ∈ '.' :: ext.toList := by
      rw [hExt]
      simp
    rcases List.mem_cons.mp hMem with hDot | hMem
    · cases hDot
    · exact hSlash hMem

theorem exists_front_of_name (hUrl : parseUrl raw = .ok url)
    (hShare : SmbSource.SmbUrl.parse parseUrl raw = .ok share)
    (hName : NamedBy share.filePath name) :
    ∃ front, percentDecodeLossy url.path = front ++ "/" ++ name := by
  obtain ⟨front, hFront⟩ := exists_front_of_parse hUrl hShare
  rcases hName with hName | ⟨dirs, hName⟩
  · exact ⟨front, by rw [hFront, hName]⟩
  · exact ⟨front ++ "/" ++ dirs, by rw [hFront, hName]; simp [String.append_assoc]⟩

/-- An extension of the table that ends the path of the URL ends the name. -/
theorem exists_stem_of_listed (hUrl : parseUrl raw = .ok url)
    (hShare : SmbSource.SmbUrl.parse parseUrl raw = .ok share)
    (hName : NamedBy share.filePath name) {ext : String}
    (hListed : Listed ext) (hExt : fileExtension url.path = ext) :
    (∃ front, url.path = front ++ "." ++ ext) ∧ ∃ stem, name = stem ++ "." ++ ext := by
  obtain ⟨front, hFront⟩ := exists_front_of_name hUrl hShare hName
  rcases dotted_or_dotless url.path with hDotless | ⟨front', ext', hPath, hDot⟩
  · -- The path would have no slash, escaped or not.
    exfalso
    rw [fileExtension_dotless hDotless] at hExt
    rw [hExt, percentDecodeLossy_of_not_mem hListed.no_percent] at hFront
    apply hListed.no_slash
    rw [hFront]
    simp
  · rw [hPath, fileExtension_dotted front' hDot] at hExt
    subst hExt
    rw [hPath, percentDecodeLossy_append_dot front' hListed.no_percent] at hFront
    exact ⟨⟨front', hPath⟩, exists_stem hListed.no_slash hFront.symm⟩

/-! ## Names that disagree -/

theorem mislabelled_dotless {pathOfUrl filePath : String} (hDot : '.' ∉ name.toList) :
    Mislabelled pathOfUrl filePath name ↔ Listed name ∧ filePath = name := by
  constructor
  · intro h
    cases h with
    | hidden | escaped => simp at hDot
    | bare hListed hRoot => exact ⟨hListed, hRoot⟩
  · rintro ⟨hListed, hRoot⟩
    exact .bare hListed hRoot

theorem mislabelled_dotted {pathOfUrl filePath stem ext : String} (hDot : '.' ∉ ext.toList) :
    Mislabelled pathOfUrl filePath (stem ++ "." ++ ext) ↔
      Listed ext ∧ (stem = "" ∨ ∀ front, pathOfUrl ≠ front ++ "." ++ ext) := by
  constructor
  · intro h
    generalize hName : stem ++ "." ++ ext = name at h
    cases h with
    | @hidden ext' hListed =>
        rw [← String.empty_append (s := ".")] at hName
        obtain ⟨rfl, rfl⟩ := dotted_inj hDot hListed.no_dot hName
        exact ⟨hListed, .inl rfl⟩
    | bare hListed =>
        have hNone := hListed.no_dot
        rw [← hName] at hNone
        simp at hNone
    | @escaped stem' ext' hListed hStem hUrl =>
        obtain ⟨rfl, rfl⟩ := dotted_inj hDot hListed.no_dot hName
        exact ⟨hListed, .inr hUrl⟩
  · rintro ⟨hListed, hStem⟩
    by_cases hEmpty : stem = ""
    · subst hEmpty
      rw [String.empty_append]
      exact .hidden hListed
    · exact .escaped hListed hEmpty (hStem.resolve_left hEmpty)

theorem default_iff {ext : String} :
    mimeForExtension ext = defaultMime ↔ ¬ Listed ext := by
  rw [← mimeForExtension_ne_default_iff, ne_eq, Classical.not_not]

/-- The last part of a path is that of its name, or has a slash. -/
theorem slash_mem_fileExtension (dirs : String) (hDot : '.' ∉ name.toList) :
    '/' ∈ (fileExtension (dirs ++ "/" ++ name)).toList := by
  rcases dotted_or_dotless dirs with hDotless | ⟨front, behind, rfl, hBehind⟩
  · have hWhole : '.' ∉ (dirs ++ "/" ++ name).toList := by simp [hDotless, hDot]
    rw [fileExtension_dotless hWhole]
    simp
  · have hRest : '.' ∉ (behind ++ "/" ++ name).toList := by simp [hBehind, hDot]
    have hText : front ++ "." ++ behind ++ "/" ++ name =
        front ++ "." ++ (behind ++ "/" ++ name) := by
      simp [String.append_assoc]
    rw [hText, fileExtension_dotted front hRest]
    simp

theorem share_dotless {filePath : String} (hName : NamedBy filePath name)
    (hDot : '.' ∉ name.toList) :
    Listed (fileExtension filePath) ↔ Listed name ∧ filePath = name := by
  constructor
  · intro hListed
    rcases hName with rfl | ⟨dirs, rfl⟩
    · rw [fileExtension_dotless hDot] at hListed
      exact ⟨hListed, rfl⟩
    · exact absurd (slash_mem_fileExtension dirs hDot) hListed.no_slash
  · rintro ⟨hListed, rfl⟩
    rw [fileExtension_dotless hDot]
    exact hListed

theorem share_dotted {filePath stem ext : String} (hName : NamedBy filePath (stem ++ "." ++ ext))
    (hDot : '.' ∉ ext.toList) : fileExtension filePath = ext := by
  rcases hName with rfl | ⟨dirs, rfl⟩
  · exact fileExtension_dotted stem hDot
  · have hText : dirs ++ "/" ++ (stem ++ "." ++ ext) = (dirs ++ "/" ++ stem) ++ "." ++ ext := by
      simp [String.append_assoc]
    rw [hText, fileExtension_dotted _ hDot]

/-- What is served and announced is what the lookups find. -/
theorem oneContentType_iff (hSmb : isSmbUrl raw = true) (hUrl : parseUrl raw = .ok url)
    (hShare : SmbSource.SmbUrl.parse parseUrl raw = .ok share) :
    OneContentType parseUrl path raw ↔
      mimeForExtension (fileExtension share.filePath) = mimeForPath path ∧
        mimeForExtension (fileExtension url.path) = mimeForPath path := by
  unfold OneContentType
  simp only [servedAs_file_iff, servedAs_share_iff hSmb hShare, announced_iff]
  rw [announced_share hUrl]
  constructor
  · rintro ⟨mime, hFile, hOnShare, -, hRemote⟩
    have hMime := (hFile _).mp rfl
    rw [(hOnShare _).mp rfl, (hRemote _).mp rfl, hMime]
    exact ⟨rfl, rfl⟩
  · rintro ⟨hOnShare, hRemote⟩
    rw [hOnShare, hRemote]
    exact ⟨mimeForPath path, fun _ => Iff.rfl, fun _ => Iff.rfl, fun _ => Iff.rfl,
      fun _ => Iff.rfl⟩

/-! ## Agreement -/

section Agreement

variable (hLocal : fileName path = some name) (hUrl : parseUrl raw = .ok url)
  (hShare : SmbSource.SmbUrl.parse parseUrl raw = .ok share) (hName : NamedBy share.filePath name)

include hUrl hShare

section Dotted

variable {stem ext : String} (hDotted : NamedBy share.filePath (stem ++ "." ++ ext))
  (hDot : '.' ∉ ext.toList)

include hDotted hDot

/-- What is announced for a name with an extension: that extension, if the URL
ends with it as it is written, and none of the table otherwise. -/
theorem ends_of_listed (hListed : Listed (fileExtension url.path)) :
    ∃ front, url.path = front ++ "." ++ ext := by
  obtain ⟨hFront, stem', hStem⟩ := exists_stem_of_listed hUrl hShare hDotted hListed rfl
  obtain ⟨-, hExt⟩ := dotted_inj hDot hListed.no_dot hStem
  rw [hExt]
  exact hFront

theorem listed_of_announced (hListed : Listed (fileExtension url.path)) : Listed ext := by
  obtain ⟨front, hFront⟩ := ends_of_listed hUrl hShare hDotted hDot hListed
  rw [hFront, fileExtension_dotted front hDot] at hListed
  exact hListed

theorem announced_mime_iff (hListed : Listed ext) :
    mimeForExtension (fileExtension url.path) = mimeForExtension ext ↔
      ∃ front, url.path = front ++ "." ++ ext := by
  constructor
  · intro hEqual
    have hMime := mimeForExtension_ne_default_iff.mpr hListed
    rw [← hEqual, mimeForExtension_ne_default_iff] at hMime
    exact ends_of_listed hUrl hShare hDotted hDot hMime
  · rintro ⟨front, hFront⟩
    rw [hFront, fileExtension_dotted front hDot]

theorem lookups_agree_dotted (hLocal : fileName path = some (stem ++ "." ++ ext)) :
    mimeForExtension (fileExtension share.filePath) = mimeForPath path ∧
        mimeForExtension (fileExtension url.path) = mimeForPath path ↔
      ¬ Mislabelled url.path share.filePath (stem ++ "." ++ ext) := by
  rw [mimeForPath_dotted hLocal hDot, mislabelled_dotted hDot, share_dotted hDotted hDot]
  by_cases hListed : Listed ext
  · by_cases hStem : stem = ""
    · simp [hStem, hListed, mimeForExtension_ne_default_iff.mpr hListed]
    · rw [if_neg hStem, announced_mime_iff hUrl hShare hDotted hDot hListed]
      simp [hListed, hStem]
  · have hAnnounced := mt (listed_of_announced hUrl hShare hDotted hDot) hListed
    have hDefault : (if stem = "" then defaultMime else mimeForExtension ext) = defaultMime := by
      rw [default_iff.mpr hListed, ite_self]
    rw [hDefault, default_iff, default_iff]
    simp [hListed, hAnnounced]

end Dotted

include hLocal hName

theorem lookups_agree_dotless (hDot : '.' ∉ name.toList) :
    mimeForExtension (fileExtension share.filePath) = mimeForPath path ∧
        mimeForExtension (fileExtension url.path) = mimeForPath path ↔
      ¬ Mislabelled url.path share.filePath name := by
  have hAnnounced : ¬ Listed (fileExtension url.path) := by
    intro hListed
    obtain ⟨-, stem, rfl⟩ := exists_stem_of_listed hUrl hShare hName hListed rfl
    simp at hDot
  rw [mimeForPath_dotless hLocal hDot, default_iff, default_iff, mislabelled_dotless hDot,
    share_dotless hName hDot]
  exact and_iff_left hAnnounced

/-- **The lookups agree** for the names that are not among these. -/
theorem lookups_agree_iff :
    mimeForExtension (fileExtension share.filePath) = mimeForPath path ∧
        mimeForExtension (fileExtension url.path) = mimeForPath path ↔
      ¬ Mislabelled url.path share.filePath name := by
  rcases dotted_or_dotless name with hDot | ⟨stem, ext, rfl, hDot⟩
  · exact lookups_agree_dotless hLocal hUrl hShare hName hDot
  · exact lookups_agree_dotted hUrl hShare hName hDot hLocal

/-- **One content type for every name but three kinds.**  Whatever the share, the
directories and the way the URL is written, a local file and a file on a share
with the same name are served and announced with one content type exactly when
the name has not a leading dot and nothing but an extension of the table behind
it, is not an extension of the table itself in the root of the share, and its
extension, if the table has it, is not escaped in the URL. -/
theorem content_type_agrees_iff (hSmb : isSmbUrl raw = true) :
    OneContentType parseUrl path raw ↔ ¬ Mislabelled url.path share.filePath name :=
  (oneContentType_iff hSmb hUrl hShare).trans (lookups_agree_iff hLocal hUrl hShare hName)

end Agreement

/-- A parser that knows one URL, with this path. -/
def nasUrl (path : String) (_ : String) : Except String Url :=
  .ok ⟨"smb", "", none, some "nas", none, path, none, none⟩

theorem parse_nas {path share filePath : String}
    (hFile : SmbSource.shareAndFile (percentDecodeLossy path) = some (share, filePath))
    (raw : String) :
    SmbSource.SmbUrl.parse (nasUrl path) raw = .ok ⟨"nas", 445, share, filePath⟩ := by
  have hScheme : eqIgnoreAsciiCase "smb" "smb" = true := by decide +kernel
  simp [SmbSource.SmbUrl.parse, nasUrl, hScheme, hFile, SmbSource.defaultPort]

/-- A name as most are. -/
theorem film_one_type :
    OneContentType (nasUrl "/media/a/film.v2.MP4") "/home/film.v2.MP4"
      "smb://nas/media/a/film.v2.MP4" := by
  have hLocal : fileName "/home/film.v2.MP4" = some "film.v2.MP4" := by
    unfold fileName
    rw [splitOn_slash]
    decide +kernel
  have hShare : SmbSource.SmbUrl.parse (nasUrl "/media/a/film.v2.MP4")
      "smb://nas/media/a/film.v2.MP4" = .ok ⟨"nas", 445, "media", "a/film.v2.MP4"⟩ :=
    parse_nas (by decide +kernel) _
  apply (content_type_agrees_iff hLocal rfl hShare (.inr ⟨"a", rfl⟩) (by decide +kernel)).mpr
  show ¬ Mislabelled "/media/a/film.v2.MP4" _ ("film.v2" ++ "." ++ "MP4")
  rw [mislabelled_dotted (by decide)]
  rintro ⟨-, hHidden | hEscaped⟩
  · exact absurd hHidden (by decide)
  · exact hEscaped "/media/a/film.v2" rfl

/-- An escaped dot: the file is a video where it is served, and not where it is
announced. -/
theorem escaped_two_types :
    fileName "/home/film.mp4" = some "film.mp4" ∧
      SmbSource.SmbUrl.parse (nasUrl "/media/film%2Emp4") "smb://nas/media/film%2Emp4" =
        .ok ⟨"nas", 445, "media", "film.mp4"⟩ ∧
      ¬ OneContentType (nasUrl "/media/film%2Emp4") "/home/film.mp4"
        "smb://nas/media/film%2Emp4" := by
  have hLocal : fileName "/home/film.mp4" = some "film.mp4" := by
    unfold fileName
    rw [splitOn_slash]
    decide +kernel
  have hShare : SmbSource.SmbUrl.parse (nasUrl "/media/film%2Emp4")
      "smb://nas/media/film%2Emp4" = .ok ⟨"nas", 445, "media", "film.mp4"⟩ :=
    parse_nas (by decide +kernel) _
  refine ⟨hLocal, hShare, ?_⟩
  rw [oneContentType_iff (by decide +kernel) rfl hShare]
  rintro ⟨hOnShare, hRemote⟩
  exact absurd (hOnShare.trans hRemote.symm) (by decide +kernel)

end CastApp.Runtime.ContentTypes
