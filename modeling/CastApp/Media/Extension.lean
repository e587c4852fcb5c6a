import CastApp.Media.SmbSource
import CastApp.Util.SplitOn

/-!
# Extensions

What the extension lookups find in a name: `Path::extension` in a local path,
`file_extension` in the path on a share.  A name either has no dot or is a stem
and an extension, which has none (`dotted_or_dotless`).

* `mimeForPath_dotted`, `mimeForPath_dotless` — a local path.
* `fileExtension_dotted`, `fileExtension_dotless` — the path on a share.
* `exists_front_of_parse` — the path of a share is the end of the decoded path
  of its URL.
-/

namespace CastApp.Media.Extension

open CastApp.Media.Mime
open CastApp.Media.SmbSource (UrlParser Url fileExtension shareAndFile)
open CastApp.Media.Serving
open CastApp.Util.Text

/-! ## Extensions of the table -/

/-- An extension of the table, in any case. -/
def Listed (extension : String) : Prop :=
  ∃ entry ∈ mimeTable, eqIgnoreAsciiCase entry.1 extension = true

theorem mimeForExtension_ne_default_iff {extension : String} :
    mimeForExtension extension ≠ defaultMime ↔ Listed extension := by
  have hTable : ∀ entry ∈ mimeTable, entry.2 ≠ defaultMime := by decide
  unfold mimeForExtension
  constructor
  · intro h
    cases hFind : mimeTable.find? fun entry => eqIgnoreAsciiCase entry.1 extension with
    | none => exact absurd (by rw [hFind]) h
    | some entry =>
        have hEntry := List.find?_some hFind
        exact ⟨entry, List.mem_of_find?_eq_some hFind, hEntry⟩
  · rintro ⟨entry, hMem, hEntry⟩
    obtain ⟨found, hFind⟩ : ∃ found, mimeTable.find?
        (fun entry => eqIgnoreAsciiCase entry.1 extension) = some found := by
      rw [← Option.isSome_iff_exists, List.find?_isSome]
      exact ⟨entry, hMem, hEntry⟩
    rw [hFind]
    exact hTable found (List.mem_of_find?_eq_some hFind)

/-- A character that no entry of the table has is in no extension of it. -/
theorem Listed.not_mem {extension : String} (h : Listed extension) {c : Char}
    (hTable : ∀ entry ∈ mimeTable, c.toLower ∉ entry.1.toLower.toList) :
    c ∉ extension.toList := by
  obtain ⟨entry, hMem, hEntry⟩ := h
  intro hChar
  have hSame : entry.1.toLower = extension.toLower := by
    simpa [eqIgnoreAsciiCase] using hEntry
  apply hTable entry hMem
  rw [hSame, toList_toLower]
  exact List.mem_map_of_mem hChar

theorem Listed.no_dot {extension : String} (h : Listed extension) : '.' ∉ extension.toList :=
  h.not_mem (by decide +kernel)

theorem Listed.no_slash {extension : String} (h : Listed extension) : '/' ∉ extension.toList :=
  h.not_mem (by decide +kernel)

theorem Listed.no_percent {extension : String} (h : Listed extension) :
    '%' ∉ extension.toList :=
  h.not_mem (by decide +kernel)

/-! ## Names -/

/-- A name without a dot, or a stem and an extension. -/
theorem dotted_or_dotless (name : String) :
    '.' ∉ name.toList ∨
      ∃ stem extension, name = stem ++ "." ++ extension ∧ '.' ∉ extension.toList := by
  by_cases hDot : '.' ∈ name.toList
  · obtain ⟨stem, extension, hName, hExtension⟩ := exists_last hDot
    refine .inr ⟨String.ofList stem, String.ofList extension, ?_, by simpa using hExtension⟩
    rw [← String.toList_inj, hName]
    simp
  · exact .inl hDot

theorem fileExtension_dotted (front : String) {extension : String}
    (h : '.' ∉ extension.toList) : fileExtension (front ++ "." ++ extension) = extension := by
  have hText : (front ++ "." ++ extension).toList =
      front.toList ++ '.' :: extension.toList := by simp
  have hLast := lastPart_append h front.toList
  show String.ofList (lastPart '.' _) = extension
  rw [hText, hLast, String.ofList_toList]

theorem fileExtension_dotless {name : String} (h : '.' ∉ name.toList) :
    fileExtension name = name := by
  show String.ofList (lastPart '.' _) = name
  rw [lastPart_of_not_mem h, String.ofList_toList]

/-- A name has one extension. -/
theorem dotted_inj {stem stem' extension extension' : String} (h : '.' ∉ extension.toList)
    (h' : '.' ∉ extension'.toList)
    (hName : stem ++ "." ++ extension = stem' ++ "." ++ extension') :
    stem = stem' ∧ extension = extension' := by
  have hExtension := congrArg fileExtension hName
  rw [fileExtension_dotted _ h, fileExtension_dotted _ h'] at hExtension
  subst hExtension
  simp at hName
  exact ⟨hName, rfl⟩

/-! ## Local paths -/

variable {path name : String}

theorem splitOn_slash (path : String) :
    path.splitOn "/" = (split '/' path.toList).map String.ofList := splitOn_singleton '/' path

/-- The parts of a name at its dots. -/
def parts (name : String) : List String := (split '.' name.toList).map String.ofList

theorem splitOn_dot (name : String) : name.splitOn "." = parts name :=
  splitOn_singleton '.' name

theorem parts_dotless (h : '.' ∉ name.toList) : parts name = [name] := by
  simp [parts, split_of_not_mem h]

theorem parts_dotted (stem : String) {extension : String} (h : '.' ∉ extension.toList) :
    parts (stem ++ "." ++ extension) = parts stem ++ [extension] := by
  have hText : (stem ++ "." ++ extension).toList =
      stem.toList ++ '.' :: extension.toList := by simp
  unfold parts
  rw [hText, split_append_last h]
  simp

theorem parts_ne_nil (name : String) : parts name ≠ [] := by
  simp [parts, split_ne_nil]

theorem parts_eq_empty_iff : parts name = [""] ↔ name = "" := by
  constructor
  · intro h
    have hParts : split '.' name.toList = [[]] := by
      have hLists := congrArg (List.map String.toList) h
      simpa [parts, Function.comp_def] using hLists
    have hJoined := intercalate_split '.' name.toList
    rw [hParts] at hJoined
    exact String.toList_eq_nil_iff.mp hJoined.symm
  · rintro rfl
    rfl

theorem extension_dotless (h : fileName path = some name) (hDot : '.' ∉ name.toList) :
    extension path = none := by
  unfold extension
  rw [h, Option.bind_some, splitOn_dot, parts_dotless hDot]
  rfl

variable {stem ext : String}

/-- A leading dot begins no extension. -/
theorem extension_hidden (h : fileName path = some ("." ++ ext)) (hDot : '.' ∉ ext.toList) :
    extension path = none := by
  have hParts := parts_dotted "" hDot
  rw [parts_eq_empty_iff.mpr rfl, String.empty_append] at hParts
  unfold extension
  rw [h, Option.bind_some, splitOn_dot, hParts]
  rfl

theorem extension_dotted (h : fileName path = some (stem ++ "." ++ ext))
    (hDot : '.' ∉ ext.toList) (hStem : stem ≠ "") : extension path = some ext := by
  have hSome : (parts stem).reverse ≠ [] := by
    simp [parts_ne_nil]
  have hNotEmpty : (parts stem).reverse ≠ [""] := by
    intro hParts
    exact hStem (parts_eq_empty_iff.mp (by simpa using congrArg List.reverse hParts))
  unfold extension
  rw [h, Option.bind_some, splitOn_dot, parts_dotted stem hDot, List.reverse_append,
    List.reverse_singleton, List.singleton_append]
  split
  · next hEq => cases hEq
  · next hEq => exact absurd (List.cons.inj hEq).2 hSome
  · next hEq => exact absurd (List.cons.inj hEq).2 hNotEmpty
  · next hEq => rw [(List.cons.inj hEq).1]

theorem mimeForPath_dotless (h : fileName path = some name) (hDot : '.' ∉ name.toList) :
    mimeForPath path = defaultMime := by
  rw [mimeForPath, extension_dotless h hDot]

theorem mimeForPath_dotted (h : fileName path = some (stem ++ "." ++ ext))
    (hDot : '.' ∉ ext.toList) :
    mimeForPath path = if stem = "" then defaultMime else mimeForExtension ext := by
  by_cases hStem : stem = ""
  · subst hStem
    rw [String.empty_append] at h
    rw [if_pos rfl, mimeForPath, extension_hidden h hDot]
  · rw [if_neg hStem, mimeForPath, extension_dotted h hDot hStem]

/-! ## Paths on a share -/

variable {parseUrl : UrlParser} {raw : String} {url : Url} {share : SmbUrl}

/-- A share and a path stand at the end of the text they are read from. -/
theorem exists_front_of_shareAndFile {decoded share filePath : String}
    (h : shareAndFile decoded = some (share, filePath)) :
    ∃ front, decoded = front ++ "/" ++ filePath := by
  unfold shareAndFile at h
  have hJoined := intercalate_split '/' (decoded.toList.dropWhile (· == '/'))
  have hText := List.takeWhile_append_dropWhile (p := (· == '/')) (l := decoded.toList)
  cases hParts : split '/' (decoded.toList.dropWhile (· == '/')) with
  | nil => exact absurd hParts (split_ne_nil _ _)
  | cons first rest =>
      rw [hParts] at h hJoined
      dsimp only at h
      split at h
      · cases h
      · cases h
        next hSegments =>
        cases rest with
        | nil => simp at hSegments
        | cons second rest =>
            refine ⟨String.ofList (decoded.toList.takeWhile (· == '/') ++ first), ?_⟩
            rw [← hJoined, List.intercalate_cons_cons] at hText
            rw [← String.toList_inj]
            simpa [String.toList_intercalate, Function.comp_def] using hText.symm

theorem shareAndFile_of_parse (hUrl : parseUrl raw = .ok url)
    (hShare : SmbSource.SmbUrl.parse parseUrl raw = .ok share) :
    shareAndFile (percentDecodeLossy url.path) = some (share.share, share.filePath) := by
  unfold SmbSource.SmbUrl.parse at hShare
  rw [hUrl] at hShare
  dsimp only at hShare
  split at hShare
  · cases hShare
  · split at hShare
    · cases hShare
    · split at hShare
      · cases hShare
      · split at hShare
        · cases hShare
        · split at hShare
          · cases hShare
          · next hFile =>
              cases hShare
              exact hFile

theorem exists_front_of_parse (hUrl : parseUrl raw = .ok url)
    (hShare : SmbSource.SmbUrl.parse parseUrl raw = .ok share) :
    ∃ front, percentDecodeLossy url.path = front ++ "/" ++ share.filePath :=
  exists_front_of_shareAndFile (shareAndFile_of_parse hUrl hShare)

end CastApp.Media.Extension
