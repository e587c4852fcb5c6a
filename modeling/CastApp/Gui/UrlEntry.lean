import CastApp.Media.Extension
import CastApp.Media.Handler

/-!
# Entering a URL

`CastDashboard::validate_url` against what the media server does with the URL:
the text decides which handler of `/stream` gets it, and each handler has a
validation of its own.  The parser follows the rules of WHATWG (`Whatwg`).

* `isSmbUrl_iff_plainStart` — when a share URL is told by its text.
* **`url_acceptance_iff`** — when the two sides agree on a text.
* `acceptance_disagrees` — a tab within the scheme, and credentials for HTTP.
-/

namespace CastApp.Gui.UrlEntry

open CastApp.Media
open CastApp.Media.Serving
open CastApp.Media.SmbSource (Url UrlParser isSmbUrl)
open CastApp.Util
open CastApp.Util.Text

/-! ## The URL parser -/

/-- A C0 control or a space. -/
def isC0OrSpace (c : Char) : Bool := c.toNat ≤ 0x20

/-- An ASCII tab or newline. -/
def isTabOrNewline (c : Char) : Bool := c == '\t' || c == '\n' || c == '\r'

/-- What the parser reads of a text. -/
def cleaned (text : List Char) : List Char :=
  (((text.dropWhile isC0OrSpace).reverse.dropWhile isC0OrSpace).reverse).filter
    fun c => !isTabOrNewline c

def specialSchemes : List String := ["ftp", "file", "http", "https", "ws", "wss"]

/-- What is used of the rules of WHATWG. -/
structure Whatwg (parseUrl : UrlParser) : Prop where
  /-- The scheme is what stands in front of the first colon, in lower case. -/
  hScheme : ∀ raw url, parseUrl raw = .ok url → ∃ scheme rest,
    splitOnce ':' (cleaned raw.toList) = some (scheme, rest) ∧
      url.scheme = String.ofList (scheme.map Char.toLower)
  /-- Behind a scheme that is not special, a host stands behind two slashes. -/
  hHost : ∀ raw url scheme rest, parseUrl raw = .ok url →
    splitOnce ':' (cleaned raw.toList) = some (scheme, rest) → url.scheme ∉ specialSchemes →
      url.host.isSome → (stripStart "//".toList rest).isSome

variable (parseUrl : UrlParser)

/-! ## Both sides -/

/-- `str::trim`. -/
def trimmed (input : String) : String := String.ofList (trim input.toList)

/-- What the field for a URL takes. -/
def validateUrl (input : String) : Bool :=
  match parseUrl (trimmed input) with
  | .error _ => false
  | .ok parsed =>
      match parsed.scheme with
      | "http" | "https" => parsed.host.isSome
      | "smb" => (SmbSource.SmbUrl.parse parseUrl (trimmed input)).isOk
      | _ => false

/-- The handlers of `/stream` for a URL. -/
inductive UrlHandler : Type
  | smbSource
  | urlProxy
  deriving DecidableEq, Repr

/-- The handler that `/stream` dispatches to. -/
def dispatch (url : String) : UrlHandler := if isSmbUrl url then .smbSource else .urlProxy

/-- The handler of a scheme. -/
def handlerOf (scheme : String) : UrlHandler := if scheme = "smb" then .smbSource else .urlProxy

/-- The handler's own validation. -/
def Passes (url : String) : UrlHandler → Prop
  | .smbSource => ∃ share, SmbSource.SmbUrl.parse parseUrl url = .ok share
  | .urlProxy => ∃ valid, UrlProxy.validateUrl parseUrl url = .ok valid

/-- The first operation of a response. -/
def firstOp {α : Type} : Serve α → Option Op
  | .await op _ => some op
  | .done _ | .fault _ => none

/-- A URL is answered with 400 exactly when it does not pass. -/
theorem serveSource_refuses_iff (url : String) (range : Option String) (headOnly : Bool) :
    firstOp (Handler.serveSource parseUrl (some (.url url)) range headOnly) =
        some (.writeHead SmbSource.badUrl) ↔
      ¬ Passes parseUrl url (dispatch url) := by
  unfold Handler.serveSource dispatch
  dsimp only
  split
  · unfold SmbSource.serve Passes
    cases SmbSource.SmbUrl.parse parseUrl url with
    | error error => exact iff_of_true rfl nofun
    | ok share => exact iff_of_false nofun fun hNone => hNone ⟨share, rfl⟩
  · unfold UrlProxy.serve Passes
    cases UrlProxy.validateUrl parseUrl url with
    | error error => exact iff_of_true rfl nofun
    | ok valid => exact iff_of_false nofun fun hNone => hNone ⟨valid, rfl⟩

/-- A URL with credentials. -/
def Userinfo (url : Url) : Prop := url.username ≠ "" ∨ url.password.isSome

/-- The two sides agree on a text. -/
structure Agrees (input : String) : Prop where
  hDispatch : validateUrl parseUrl input = true → ∀ url, parseUrl (trimmed input) = .ok url →
    dispatch (trimmed input) = handlerOf url.scheme ∧
      Passes parseUrl (trimmed input) (dispatch (trimmed input))
  hShare : ∀ share, SmbSource.SmbUrl.parse parseUrl input = .ok share → isSmbUrl input = true
  hGui : ∀ url, parseUrl (trimmed input) = .ok url → Userinfo url →
    validateUrl parseUrl input = false
  hServer : ∀ url, parseUrl input = .ok url → Userinfo url →
    ∀ handler, ¬ Passes parseUrl input handler

/-! ## Where a text begins with the scheme -/

/-- The text begins with `smb://`, in any case. -/
def StartsSmb (text : List Char) : Prop := (text.take 6).map Char.toLower = "smb://".toList

variable {text : List Char}

theorem StartsSmb.length (h : StartsSmb text) : 6 ≤ text.length := by
  have hLength := congrArg List.length h
  rw [List.length_map, List.length_take] at hLength
  have hSix : "smb://".toList.length = 6 := rfl
  omega

theorem startsSmb_append {front : List Char} (hLength : 6 ≤ front.length) (rest : List Char) :
    StartsSmb (front ++ rest) ↔ StartsSmb front := by
  unfold StartsSmb
  rw [List.take_append_of_le_length hLength]

theorem StartsSmb.append (h : StartsSmb text) (rest : List Char) : StartsSmb (text ++ rest) :=
  (startsSmb_append h.length rest).mpr h

theorem isWhitespace_not_upper (c : Char) (h : isWhitespace c = true) :
    ¬ (65 ≤ c.toNat ∧ c.toNat ≤ 90) := by
  simp [isWhitespace] at h
  omega

theorem isC0OrSpace_not_upper (c : Char) (h : isC0OrSpace c = true) :
    ¬ (65 ≤ c.toNat ∧ c.toNat ≤ 90) := by
  simp [isC0OrSpace] at h
  omega

theorem isC0OrSpace_of_tab {c : Char} (h : isTabOrNewline c = true) : isC0OrSpace c = true := by
  simp only [isTabOrNewline, Bool.or_eq_true, beq_iff_eq] at h
  rcases h with (rfl | rfl) | rfl <;> rfl

theorem isTabOrNewline_not_upper (c : Char) (h : isTabOrNewline c = true) :
    ¬ (65 ≤ c.toNat ∧ c.toNat ≤ 90) :=
  isC0OrSpace_not_upper c (isC0OrSpace_of_tab h)

/-- Such a text begins with a letter. -/
theorem StartsSmb.head (h : StartsSmb text) :
    ∃ c rest, text = c :: rest ∧ isWhitespace c = false ∧ isC0OrSpace c = false := by
  cases text with
  | nil => exact absurd h.length (by decide)
  | cons c rest =>
      have hLower : c.toLower = 's' := List.head_eq_of_cons_eq h
      refine ⟨c, rest, rfl, ?_, ?_⟩
      · apply false_of_toLower isWhitespace_not_upper
        rw [hLower]
        decide
      · apply false_of_toLower isC0OrSpace_not_upper
        rw [hLower]
        decide

/-- What is stripped at the end does not matter at the start. -/
theorem startsSmb_trimEnd {p : Char → Bool}
    (hClass : ∀ c, p c = true → ¬ (65 ≤ c.toNat ∧ c.toNat ≤ 90)) (hSlash : p '/' = false) :
    StartsSmb (text.reverse.dropWhile p).reverse ↔ StartsSmb text := by
  constructor
  · intro h
    have hText : text = (text.reverse.dropWhile p).reverse ++
        (text.reverse.takeWhile p).reverse := by
      rw [← List.reverse_append, List.takeWhile_append_dropWhile, List.reverse_reverse]
    rw [hText]
    exact h.append _
  · intro h
    have hText := List.take_append_drop 6 text
    obtain ⟨c, hLast, hLower⟩ : ∃ c, (text.take 6).getLast? = some c ∧ c.toLower = '/' := by
      have hMapped := congrArg List.getLast? h
      rw [List.getLast?_map] at hMapped
      exact Option.map_eq_some_iff.mp hMapped
    have hKept : p c = false := false_of_toLower hClass (by rw [hLower, hSlash])
    have hFront : 6 ≤ (text.take 6).length := by
      have hLength := h.length
      rw [List.length_take]
      omega
    rw [← hText, dropEnd_append hLast hKept, startsSmb_append hFront]
    rw [← hText, startsSmb_append hFront] at h
    exact h

theorem isSmbUrl_iff (raw : String) :
    isSmbUrl raw = true ↔ StartsSmb (raw.toList.dropWhile isWhitespace) := by
  rw [← startsSmb_trimEnd isWhitespace_not_upper (by decide)]
  show (stripStart "smb://".toList ((trim raw.toList).map Char.toLower)).isSome ↔
    StartsSmb (trim raw.toList)
  rw [Option.isSome_iff_exists]
  simp only [stripStart_eq_some_iff]
  constructor
  · rintro ⟨rest, hRest⟩
    unfold StartsSmb
    rw [List.map_take, hRest]
    exact List.take_left' rfl
  · intro h
    refine ⟨((trim raw.toList).drop 6).map Char.toLower, ?_⟩
    rw [← h, ← List.map_append, List.take_append_drop]

/-- There is no tab and no newline in `smb://`. -/
theorem StartsSmb.no_tab (h : StartsSmb text) : ∀ c ∈ text.take 6, isTabOrNewline c = false := by
  intro c hMem
  have hLower : c.toLower ∈ "smb://".toList := by
    rw [← h]
    exact List.mem_map_of_mem hMem
  have hOther : "smb://".toList.all (fun d => !isTabOrNewline d) = true := by decide
  apply false_of_toLower isTabOrNewline_not_upper
  rw [← Bool.not_eq_true']
  exact List.all_eq_true.mp hOther _ hLower

theorem filter_of_no_tab (h : ∀ c ∈ text.take 6, isTabOrNewline c = false) :
    text.filter (fun c => !isTabOrNewline c) =
      text.take 6 ++ (text.drop 6).filter fun c => !isTabOrNewline c := by
  have hFront : (text.take 6).filter (fun c => !isTabOrNewline c) = text.take 6 := by
    rw [List.filter_eq_self]
    intro c hMem
    rw [h c hMem]
    rfl
  have hSplit := List.filter_append (p := fun c => !isTabOrNewline c) (text.take 6) (text.drop 6)
  rw [List.take_append_drop, hFront] at hSplit
  exact hSplit

theorem StartsSmb.filter (h : StartsSmb text) :
    StartsSmb (text.filter fun c => !isTabOrNewline c) := by
  have hFront : 6 ≤ (text.take 6).length := by
    have hLength := h.length
    rw [List.length_take]
    omega
  rw [filter_of_no_tab h.no_tab, startsSmb_append hFront, ← startsSmb_append hFront (text.drop 6),
    List.take_append_drop]
  exact h

/-- Without tabs and newlines, the text begins as it does with them if there
are none in its first six characters. -/
theorem startsSmb_filter_iff (h : StartsSmb (text.filter fun c => !isTabOrNewline c)) :
    StartsSmb text ↔ ∀ c ∈ text.take 6, isTabOrNewline c = false := by
  constructor
  · exact StartsSmb.no_tab
  · intro hNone
    have hFront : 6 ≤ (text.take 6).length := by
      have hFilter := h.length
      have hShorter := List.length_filter_le (fun c => !isTabOrNewline c) text
      rw [List.length_take]
      omega
    rw [filter_of_no_tab hNone, startsSmb_append hFront,
      ← startsSmb_append hFront (text.drop 6), List.take_append_drop] at h
    exact h

/-- The share URL stands at the start of a text: no control character that is
no white space in front of it, and no tab or newline within `smb://`. -/
def PlainStart (text : List Char) : Prop :=
  (∀ c ∈ text.takeWhile isC0OrSpace, isWhitespace c = true) ∧
    ∀ c ∈ (text.dropWhile isC0OrSpace).take 6, isTabOrNewline c = false

/-- White space only in front: what `trim` drops there is what the parser drops. -/
theorem dropWhile_of_lead
    (h : StartsSmb ((text.dropWhile isC0OrSpace).filter fun c => !isTabOrNewline c))
    (hLead : ∀ c ∈ text.takeWhile isC0OrSpace, isWhitespace c = true) :
    text.dropWhile isWhitespace = text.dropWhile isC0OrSpace := by
  have hText := List.takeWhile_append_dropWhile (p := isC0OrSpace) (l := text)
  have hHead := List.head?_dropWhile_not isC0OrSpace text
  cases hBody : text.dropWhile isC0OrSpace with
  | nil =>
      rw [hBody] at h
      exact absurd h.length (by decide)
  | cons c rest =>
      rw [hBody] at h hHead
      have hControl : isC0OrSpace c = false := hHead
      have hTab : isTabOrNewline c = false := by
        cases hSome : isTabOrNewline c with
        | false => rfl
        | true =>
            rw [isC0OrSpace_of_tab hSome] at hControl
            exact hControl
      rw [List.filter_cons_of_pos (by rw [hTab]; rfl)] at h
      obtain ⟨d, _, hFirst, hSpace, -⟩ := h.head
      cases hFirst
      rw [← hText, List.dropWhile_append_of_pos hLead, hBody]
      exact List.dropWhile_cons_of_neg (by rw [hSpace]; exact Bool.false_ne_true)

/-- A control that is no white space stays in front. -/
theorem not_startsSmb_of_lead
    (hLead : ¬ ∀ c ∈ text.takeWhile isC0OrSpace, isWhitespace c = true) :
    ¬ StartsSmb (text.dropWhile isWhitespace) := by
  intro hStart
  have hText := List.takeWhile_append_dropWhile (p := isC0OrSpace) (l := text)
  obtain ⟨c, rest, hHead, -, hControl⟩ := hStart.head
  have hKept : (text.takeWhile isC0OrSpace).dropWhile isWhitespace ≠ [] := by
    intro hNil
    exact hLead (List.dropWhile_eq_nil_iff.mp hNil)
  rw [← hText, List.dropWhile_append, if_neg (by rw [List.isEmpty_iff]; exact hKept)] at hHead
  obtain ⟨d, more, hFirst⟩ := List.exists_cons_of_ne_nil hKept
  rw [hFirst] at hHead
  cases hHead
  have hMem : c ∈ text.takeWhile isC0OrSpace := by
    apply (List.dropWhile_sublist isWhitespace).subset
    rw [hFirst]
    exact List.mem_cons_self
  rw [List.mem_takeWhile_imp hMem] at hControl
  exact Bool.noConfusion hControl

theorem startsSmb_dropWhile_iff
    (h : StartsSmb ((text.dropWhile isC0OrSpace).filter fun c => !isTabOrNewline c)) :
    StartsSmb (text.dropWhile isWhitespace) ↔ PlainStart text := by
  unfold PlainStart
  by_cases hLead : ∀ c ∈ text.takeWhile isC0OrSpace, isWhitespace c = true
  · rw [and_iff_right hLead, ← startsSmb_filter_iff h, dropWhile_of_lead h hLead]
  · constructor
    · intro hStart
      exact absurd hStart (not_startsSmb_of_lead hLead)
    · intro hPlain
      exact absurd hPlain.1 hLead

/-! ## Share URLs -/

variable {parseUrl}

/-- The scheme of a share URL, as the parser reads it. -/
theorem parsed_of_share {raw : String} {share : SmbUrl} (hWhatwg : Whatwg parseUrl)
    (h : SmbSource.SmbUrl.parse parseUrl raw = .ok share) :
    ∃ url, parseUrl raw = .ok url ∧ url.scheme = "smb" ∧ ¬ Userinfo url ∧ url.host.isSome := by
  unfold SmbSource.SmbUrl.parse at h
  cases hParsed : parseUrl raw with
  | error => rw [hParsed] at h; cases h
  | ok url =>
      rw [hParsed] at h
      dsimp only at h
      split at h
      · cases h
      · next hScheme =>
        split at h
        · cases h
        · next hUserinfo =>
          split at h
          · cases h
          · next hHost =>
            refine ⟨url, rfl, ?_, hUserinfo, by rw [hHost]; rfl⟩
            obtain ⟨scheme, _, -, hLower⟩ := hWhatwg.hScheme raw url hParsed
            have hSame : url.scheme.toLower = "smb".toLower := by
              simpa [Mime.eqIgnoreAsciiCase] using hScheme
            have hKept : url.scheme.toLower = url.scheme := by
              rw [hLower, ← String.toList_inj, toList_toLower, String.toList_ofList, List.map_map]
              exact List.map_congr_left fun c _ => toLower_toLower c
            rw [← hKept, hSame]
            decide +kernel

/-- A share URL begins with the scheme and two slashes, once it is cleaned. -/
theorem startsSmb_of_share {raw : String} {share : SmbUrl} (hWhatwg : Whatwg parseUrl)
    (h : SmbSource.SmbUrl.parse parseUrl raw = .ok share) : StartsSmb (cleaned raw.toList) := by
  obtain ⟨url, hParsed, hSmb, -, hHost⟩ := parsed_of_share hWhatwg h
  obtain ⟨scheme, rest, hColon, hLower⟩ := hWhatwg.hScheme raw url hParsed
  have hSpecial : url.scheme ∉ specialSchemes := by
    rw [hSmb]
    decide
  have hSlashes := hWhatwg.hHost raw url scheme rest hParsed hColon hSpecial hHost
  obtain ⟨path, hPath⟩ := Option.isSome_iff_exists.mp hSlashes
  rw [stripStart_eq_some_iff] at hPath
  have hScheme : scheme.map Char.toLower = "smb".toList := by
    rw [← hSmb, hLower, String.toList_ofList]
  have hLength : scheme.length = 3 := by
    rw [← List.length_map, hScheme]
    rfl
  rw [(splitOnce_eq_some hColon).1, hPath]
  unfold StartsSmb
  rw [List.map_take, List.map_append, hScheme]
  rfl

/-- **A share URL is told by its text** exactly when it stands plainly at the
start. -/
theorem isSmbUrl_iff_plainStart {raw : String} {share : SmbUrl} (hWhatwg : Whatwg parseUrl)
    (h : SmbSource.SmbUrl.parse parseUrl raw = .ok share) :
    isSmbUrl raw = true ↔ PlainStart raw.toList := by
  have hCleaned := startsSmb_of_share hWhatwg h
  rw [isSmbUrl_iff]
  apply startsSmb_dropWhile_iff
  have hBody := List.takeWhile_append_dropWhile (p := isC0OrSpace)
    (l := (raw.toList.dropWhile isC0OrSpace).reverse)
  rw [← List.reverse_inj, List.reverse_append, List.reverse_reverse] at hBody
  rw [← hBody, List.filter_append]
  exact hCleaned.append _

/-! ## Agreement -/

theorem StartsSmb.splitOnce {cleaned scheme rest : List Char} (h : StartsSmb cleaned)
    (hColon : Text.splitOnce ':' cleaned = some (scheme, rest)) :
    scheme.map Char.toLower = "smb".toList := by
  obtain ⟨hText, hScheme⟩ := splitOnce_eq_some hColon
  have hLower : ':' ∉ scheme.map Char.toLower := by
    intro hMem
    obtain ⟨c, hChar, hSame⟩ := List.mem_map.mp hMem
    rw [eq_of_toLower (by decide) hSame] at hChar
    exact hScheme hChar
  have hMapped : cleaned.map Char.toLower =
      "smb".toList ++ ':' :: ('/' :: '/' :: (cleaned.drop 6).map Char.toLower) := by
    have hCut : (cleaned.take 6 ++ cleaned.drop 6).map Char.toLower =
        (cleaned.take 6).map Char.toLower ++ (cleaned.drop 6).map Char.toLower := List.map_append
    rw [List.take_append_drop, show (cleaned.take 6).map Char.toLower = _ from h] at hCut
    exact hCut
  have hFirst := splitOnce_append hLower (rest.map Char.toLower)
  have hSmb : ':' ∉ "smb".toList := by decide
  have hSecond := splitOnce_append hSmb
    ('/' :: '/' :: (cleaned.drop 6).map Char.toLower)
  rw [← hMapped, hText, List.map_append, List.map_cons, show ':'.toLower = ':' from rfl,
    hFirst] at hSecond
  exact (Prod.mk.inj (Option.some.inj hSecond)).1

/-- A text that is told to be a share URL has the scheme of one. -/
theorem scheme_of_isSmbUrl {input : String} {url : Url} (hWhatwg : Whatwg parseUrl)
    (hParsed : parseUrl (trimmed input) = .ok url) (h : isSmbUrl (trimmed input) = true) :
    url.scheme = "smb" := by
  obtain ⟨scheme, rest, hColon, hLower⟩ := hWhatwg.hScheme _ _ hParsed
  rw [isSmbUrl_iff] at h
  have hText : (trimmed input).toList = trim input.toList := String.toList_ofList
  rw [hText] at h hColon
  have hStart : StartsSmb (trim input.toList) := by
    cases hTrim : trim input.toList with
    | nil =>
        rw [hTrim] at h
        exact absurd h.length (by decide)
    | cons c rest =>
        rw [hTrim, List.dropWhile_cons_of_neg
          (by rw [trim_head hTrim]; exact Bool.false_ne_true)] at h
        exact h
  have hKept : (trim input.toList).dropWhile isC0OrSpace = trim input.toList := by
    obtain ⟨c, rest, hHead, -, hControl⟩ := hStart.head
    rw [hHead]
    exact List.dropWhile_cons_of_neg (by rw [hControl]; exact Bool.false_ne_true)
  have hCleaned : StartsSmb (cleaned (trim input.toList)) := by
    unfold cleaned
    rw [hKept]
    exact ((startsSmb_trimEnd isC0OrSpace_not_upper (by decide)).mpr hStart).filter
  rw [hLower, hCleaned.splitOnce hColon, String.ofList_toList]

/-! ## Agreement -/

/-- A scheme of the web. -/
def Web (url : Url) : Prop := url.scheme = "http" ∨ url.scheme = "https"

/-- What is taken is a URL of the web with a host, or a share URL. -/
theorem validateUrl_iff {input : String} {url : Url} (hParsed : parseUrl (trimmed input) = .ok url) :
    validateUrl parseUrl input = true ↔
      (Web url ∧ url.host.isSome) ∨
        (url.scheme = "smb" ∧
          ∃ share, SmbSource.SmbUrl.parse parseUrl (trimmed input) = .ok share) := by
  unfold validateUrl Web
  rw [hParsed]
  dsimp only
  split
  · next hScheme => simp [hScheme]
  · next hScheme => simp [hScheme]
  · next hScheme =>
    cases SmbSource.SmbUrl.parse parseUrl (trimmed input) <;>
      simp [hScheme, Except.isOk, Except.toBool]
  · next hHttp hHttps hSmb =>
    constructor
    · intro hTaken
      cases hTaken
    · rintro (⟨hScheme | hScheme, -⟩ | ⟨hScheme, -⟩)
      · exact absurd hScheme hHttp
      · exact absurd hScheme hHttps
      · exact absurd hScheme hSmb

theorem passes_proxy_iff {url : Url} {raw : String} (hParsed : parseUrl raw = .ok url) :
    Passes parseUrl raw .urlProxy ↔ ¬ Userinfo url ∧ url.host.isSome := by
  unfold Passes UrlProxy.validateUrl Userinfo
  rw [hParsed]
  dsimp only
  by_cases hUserinfo : url.username ≠ "" ∨ url.password.isSome
  · rw [if_pos hUserinfo]
    simp [hUserinfo]
  · rw [if_neg hUserinfo]
    cases hHost : url.host <;> simp [hUserinfo]

theorem not_passes_of_userinfo {url : Url} {raw : String} (hWhatwg : Whatwg parseUrl)
    (hParsed : parseUrl raw = .ok url) (hUserinfo : Userinfo url) (handler : UrlHandler) :
    ¬ Passes parseUrl raw handler := by
  cases handler with
  | urlProxy =>
      intro hPasses
      exact ((passes_proxy_iff hParsed).mp hPasses).1 hUserinfo
  | smbSource =>
      rintro ⟨share, hShare⟩
      obtain ⟨url', hParsed', -, hNone, -⟩ := parsed_of_share hWhatwg hShare
      rw [hParsed] at hParsed'
      cases hParsed'
      exact hNone hUserinfo

/-- A text that both sides read alike: no URL of the web with credentials, and
a share URL only where it stands plainly at the start. -/
structure ReadAlike (parseUrl : UrlParser) (input : String) : Prop where
  hCredentials : ∀ url, parseUrl (trimmed input) = .ok url → Web url → url.host.isSome →
    ¬ Userinfo url
  hPlain : ∀ share, SmbSource.SmbUrl.parse parseUrl input = .ok share → PlainStart input.toList
  hTrimmed : ∀ share, SmbSource.SmbUrl.parse parseUrl (trimmed input) = .ok share →
    PlainStart (trimmed input).toList

theorem agrees_of_readAlike {input : String} (hWhatwg : Whatwg parseUrl)
    (h : ReadAlike parseUrl input) : Agrees parseUrl input := by
  constructor
  case hDispatch =>
    intro hTaken url hParsed
    rcases (validateUrl_iff hParsed).mp hTaken with ⟨hWeb, hHost⟩ | ⟨hSmb, share, hShare⟩
    · have hOther : url.scheme ≠ "smb" := by
        rcases hWeb with hScheme | hScheme <;> rw [hScheme] <;> decide
      have hText : ¬ isSmbUrl (trimmed input) = true :=
        fun hTold => hOther (scheme_of_isSmbUrl hWhatwg hParsed hTold)
      have hProxy : dispatch (trimmed input) = .urlProxy := if_neg hText
      rw [hProxy]
      refine ⟨(if_neg hOther).symm, (passes_proxy_iff hParsed).mpr ⟨?_, hHost⟩⟩
      exact h.hCredentials url hParsed hWeb hHost
    · have hText := (isSmbUrl_iff_plainStart hWhatwg hShare).mpr (h.hTrimmed share hShare)
      have hSource : dispatch (trimmed input) = .smbSource := if_pos hText
      rw [hSource]
      exact ⟨(if_pos hSmb).symm, share, hShare⟩
  case hShare =>
    intro share hShare
    exact (isSmbUrl_iff_plainStart hWhatwg hShare).mpr (h.hPlain share hShare)
  case hGui =>
    intro url hParsed hUserinfo
    rw [← Bool.not_eq_true, validateUrl_iff hParsed]
    rintro (⟨hWeb, hHost⟩ | ⟨-, share, hShare⟩)
    · exact h.hCredentials url hParsed hWeb hHost hUserinfo
    · exact not_passes_of_userinfo hWhatwg hParsed hUserinfo .smbSource ⟨share, hShare⟩
  case hServer =>
    intro url hParsed hUserinfo handler
    exact not_passes_of_userinfo hWhatwg hParsed hUserinfo handler

theorem readAlike_of_agrees {input : String} (hWhatwg : Whatwg parseUrl)
    (h : Agrees parseUrl input) : ReadAlike parseUrl input := by
  constructor
  case hCredentials =>
    intro url hParsed hWeb hHost hUserinfo
    have hTaken := (validateUrl_iff hParsed).mpr (.inl ⟨hWeb, hHost⟩)
    rw [h.hGui url hParsed hUserinfo] at hTaken
    exact Bool.noConfusion hTaken
  case hPlain =>
    intro share hShare
    exact (isSmbUrl_iff_plainStart hWhatwg hShare).mp (h.hShare share hShare)
  case hTrimmed =>
    intro share hShare
    obtain ⟨url, hParsed, hSmb, -, -⟩ := parsed_of_share hWhatwg hShare
    have hTaken := (validateUrl_iff hParsed).mpr (.inr ⟨hSmb, share, hShare⟩)
    obtain ⟨hDispatch, -⟩ := h.hDispatch hTaken url hParsed
    rw [handlerOf, if_pos hSmb, dispatch] at hDispatch
    apply (isSmbUrl_iff_plainStart hWhatwg hShare).mp
    split at hDispatch
    · next hText => exact hText
    · cases hDispatch

/-- **When both sides agree on a text**: unless it is a URL of the web with
credentials, or a share URL with a control character in front of it or a tab or
newline within `smb://`. -/
theorem url_acceptance_iff (parseUrl : UrlParser) (hWhatwg : Whatwg parseUrl) (input : String) :
    Agrees parseUrl input ↔ ReadAlike parseUrl input :=
  ⟨readAlike_of_agrees hWhatwg, agrees_of_readAlike hWhatwg⟩

/-! ## Texts -/

/-- A share URL with a tab behind its first slash. -/
def tabbed : String := "smb:/\t/nas/media/film.mp4"

/-- A URL of the web with credentials. -/
def secret : String := "http://user:pw@host/film.mp4"

def plain : String := "smb://nas/media/film.mp4"

/-- A parser that knows these. -/
def knownUrl (raw : String) : Except String Url :=
  if raw = tabbed ∨ raw = plain then
    .ok ⟨"smb", "", none, some "nas", none, "/media/film.mp4", none, none⟩
  else if raw = secret then
    .ok ⟨"http", "user", some "pw", some "host", none, "/film.mp4", none, none⟩
  else .error "relative URL without a base"

theorem knownUrl_cases {raw : String} {url : Url} (h : knownUrl raw = .ok url) :
    (splitOnce ':' (cleaned raw.toList) = some ("smb".toList, "//nas/media/film.mp4".toList) ∧
        url.scheme = "smb") ∨
      (splitOnce ':' (cleaned raw.toList) =
          some ("http".toList, "//user:pw@host/film.mp4".toList) ∧
        url.scheme = "http") := by
  unfold knownUrl at h
  split at h
  · next hRaw =>
    cases h
    rcases hRaw with rfl | rfl
    · exact .inl ⟨by decide +kernel, rfl⟩
    · exact .inl ⟨by decide +kernel, rfl⟩
  · split at h
    · next hRaw =>
      cases h
      rw [hRaw]
      exact .inr ⟨by decide +kernel, rfl⟩
    · cases h

theorem knownUrl_whatwg : Whatwg knownUrl := by
  constructor
  · intro raw url hParsed
    rcases knownUrl_cases hParsed with ⟨hText, hScheme⟩ | ⟨hText, hScheme⟩
    · exact ⟨_, _, hText, by rw [hScheme]; decide +kernel⟩
    · exact ⟨_, _, hText, by rw [hScheme]; decide +kernel⟩
  · intro raw url scheme rest hParsed hColon hSpecial _
    rcases knownUrl_cases hParsed with ⟨hText, -⟩ | ⟨-, hScheme⟩
    · rw [hText] at hColon
      cases hColon
      rfl
    · rw [hScheme] at hSpecial
      exact absurd (by decide) hSpecial

theorem parse_known {raw : String} (h : raw = tabbed ∨ raw = plain) :
    SmbSource.SmbUrl.parse knownUrl raw = .ok ⟨"nas", 445, "media", "film.mp4"⟩ := by
  have hScheme : Mime.eqIgnoreAsciiCase "smb" "smb" = true := by decide +kernel
  have hFile : SmbSource.shareAndFile (percentDecodeLossy "/media/film.mp4") =
      some ("media", "film.mp4") := by decide +kernel
  simp [SmbSource.SmbUrl.parse, knownUrl, h, hScheme, hFile, SmbSource.defaultPort]

theorem plain_agrees : Agrees knownUrl plain := by
  have hTrimmed : trimmed plain = plain := by decide +kernel
  have hStart : PlainStart plain.toList := by
    have hLead : plain.toList.takeWhile isC0OrSpace = [] := by decide +kernel
    have hBody : plain.toList.dropWhile isC0OrSpace = plain.toList := by decide +kernel
    have hSmb : StartsSmb plain.toList := by
      unfold StartsSmb
      decide +kernel
    unfold PlainStart
    rw [hLead, hBody]
    exact ⟨nofun, hSmb.no_tab⟩
  apply (url_acceptance_iff knownUrl knownUrl_whatwg plain).mpr
  constructor
  case hCredentials =>
    intro url hParsed hWeb
    have hKnown : knownUrl plain = .ok ⟨"smb", "", none, some "nas", none, "/media/film.mp4",
      none, none⟩ := if_pos (.inr rfl)
    rw [hTrimmed, hKnown] at hParsed
    cases hParsed
    rcases hWeb with hScheme | hScheme <;> exact absurd hScheme (by decide)
  case hPlain =>
    intro share _
    exact hStart
  case hTrimmed =>
    intro share _
    rw [hTrimmed]
    exact hStart

/-- **A tab within the scheme, and credentials for HTTP**: the field takes
both, and no handler plays them. -/
theorem acceptance_disagrees :
    Whatwg knownUrl ∧ ¬ Agrees knownUrl tabbed ∧ ¬ Agrees knownUrl secret := by
  refine ⟨knownUrl_whatwg, fun hAgrees => ?_, fun hAgrees => ?_⟩
  · have hStart := (readAlike_of_agrees knownUrl_whatwg hAgrees).hPlain _ (parse_known (.inl rfl))
    have hTab : '\t' ∈ (tabbed.toList.dropWhile isC0OrSpace).take 6 := by decide +kernel
    exact absurd (hStart.2 '\t' hTab) (by decide)
  · have hTrimmed : trimmed secret = secret := by decide +kernel
    have hCredentials := (readAlike_of_agrees knownUrl_whatwg hAgrees).hCredentials
    rw [hTrimmed] at hCredentials
    exact hCredentials _ rfl (.inl rfl) rfl (.inr rfl)

end CastApp.Gui.UrlEntry
