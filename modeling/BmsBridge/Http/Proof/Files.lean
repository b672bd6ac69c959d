import BmsBridge.Http.Files

/-! Which files the server gives away. -/

namespace BmsBridge

open Paths

theorem lookup_contentTypes {ext : List Char} (hExt : '/' ∈ ext) :
    kContentTypes.lookup (String.ofList ext) = none := by
  have hKeys : ∀ entry ∈ kContentTypes, '/' ∉ entry.1.toList := by
    simp [kContentTypes]
  rw [List.lookup_eq_none_iff]
  intro entry hEntry
  have hKey := hKeys entry hEntry
  rw [bne_iff_ne]
  rintro h
  rw [← h, String.toList_ofList] at hKey
  exact hKey hExt

/-- A dot in the name of a directory is no extension. -/
theorem mimeForExt_behind (dirs name : List Char) :
    mimeForExt (dirs ++ '/' :: name) = mimeForExt name := by
  have hSlash : fromLast '.' ('/' :: name) = fromLast '.' name := fromLast_cons_ne (by decide) name
  rw [mimeForExt, mimeForExt, fromLast_append, hSlash]
  cases fromLast '.' name with
  | some ext => rfl
  | none =>
    cases fromLast '.' dirs with
    | none => rfl
    | some ext =>
      have hLookup : kContentTypes.lookup (String.ofList (ext ++ '/' :: name)) = none :=
        lookup_contentTypes (by simp)
      simp only [Option.map_some, Option.none_or, hLookup, Option.getD_none]

theorem CanonicalPath.below_iff (root file : CanonicalPath) : root.text ++ ['/'] <+: file.text ↔
    root.names ≠ [] ∧ ∃ dirs name, file.names = root.names ++ dirs ++ [name] := by
  rw [text, text, text_prefix_iff root.proper file.proper]
  refine and_congr_right fun _ => ⟨?_, ?_⟩
  · rintro ⟨rest, hSome, hNames⟩
    refine ⟨rest.dropLast, rest.getLast hSome, ?_⟩
    rw [hNames, List.append_assoc, List.dropLast_append_getLast]
  · rintro ⟨dirs, name, hNames⟩
    exact ⟨dirs ++ [name], by simp, by rw [hNames, List.append_assoc]⟩

theorem CanonicalPath.mimeForExt_text {file : CanonicalPath} {dirs : List (List Char)} {name : List Char}
    (hNames : file.names = dirs ++ [name]) : mimeForExt file.text = mimeForExt name := by
  have hText : file.text = spell '/' dirs ++ '/' :: name := by
    rw [text, hNames, Paths.text, if_neg (by simp), spell_append, spell_cons]
    simp [spell]
  rw [hText, mimeForExt_behind]

variable (wwwRoot : String) (fs : Fin 3 → FileSystem)

theorem serveFile_ok_iff (path contentType : String) (body : List UInt8) :
    serveFile wwwRoot fs path = some (.ok contentType body) ↔
      ∃ root file : CanonicalPath, (fs 1).realpath wwwRoot = some root ∧
        (fs 0).realpath (wwwRoot ++ path) = some file ∧ root.text ++ ['/'] <+: file.text ∧
        (fs 2).read file = .bytes body ∧ contentType = mimeForExt file.text := by
  constructor
  · intro h
    rw [serveFile] at h
    cases hFile : (fs 0).realpath (wwwRoot ++ path) with
    | none => simp [hFile] at h
    | some file =>
      cases hRoot : (fs 1).realpath wwwRoot with
      | none => simp [hFile, hRoot] at h
      | some root =>
        by_cases hBelow : root.text ++ ['/'] <+: file.text
        · simp only [hFile, hRoot, if_pos hBelow] at h
          cases hRead : (fs 2).read file with
          | closed => simp [hRead] at h
          | throws => simp [hRead] at h
          | bytes read =>
            simp only [hRead, Option.some.injEq, FileReply.ok.injEq] at h
            obtain ⟨rfl, rfl⟩ := h
            exact ⟨root, file, rfl, rfl, hBelow, hRead, rfl⟩
        · simp [hFile, hRoot, if_neg hBelow] at h
  · rintro ⟨root, file, hRoot, hFile, hBelow, hRead, rfl⟩
    simp only [serveFile, hFile, hRoot, if_pos hBelow, hRead]

/-- A request gets a file exactly if no page has its path and the path leads, with all links followed,
to a file strictly below the root that can be read; the content type is that of the file's own name.
Of a root that is the root of the file system nothing is given away. -/
theorem file_served_iff (uri : Option (Option String)) (contentType : String) (body : List UInt8) :
    onRequest wwwRoot fs uri = .file (.ok contentType body) ↔
      ∃ path, uri = some path ∧ kPages.lookup (requestPath path) = none ∧
        ∃ root file : CanonicalPath, (fs 1).realpath wwwRoot = some root ∧
          (fs 0).realpath (wwwRoot ++ requestPath path) = some file ∧ root.names ≠ [] ∧
          (∃ dirs name, file.names = root.names ++ dirs ++ [name] ∧ contentType = mimeForExt name) ∧
          (fs 2).read file = .bytes body := by
  cases uri with
  | none => simp [onRequest]
  | some path =>
    cases hPage : kPages.lookup (requestPath path) with
    | some page =>
      refine iff_of_false (by simp [onRequest, hPage]) ?_
      rintro ⟨other, hUri, hNone, -⟩
      obtain rfl := Option.some.inj hUri
      rw [hPage] at hNone
      cases hNone
    | none =>
      have hServed : onRequest wwwRoot fs (some path) = .file (.ok contentType body) ↔
          serveFile wwwRoot fs (requestPath path) = some (.ok contentType body) := by
        rw [onRequest, hPage]
        cases serveFile wwwRoot fs (requestPath path) <;> simp
      rw [hServed, serveFile_ok_iff]
      constructor
      · rintro ⟨root, file, hRoot, hFile, hBelow, hRead, rfl⟩
        obtain ⟨hSome, dirs, name, hNames⟩ := (root.below_iff file).mp hBelow
        exact ⟨path, rfl, hPage, root, file, hRoot, hFile, hSome,
          ⟨dirs, name, hNames, CanonicalPath.mimeForExt_text hNames⟩, hRead⟩
      · rintro ⟨other, hUri, -, root, file, hRoot, hFile, hSome, ⟨dirs, name, hNames, rfl⟩, hRead⟩
        obtain rfl := Option.some.inj hUri
        exact ⟨root, file, hRoot, hFile, (root.below_iff file).mpr ⟨hSome, dirs, name, hNames⟩, hRead,
          (CanonicalPath.mimeForExt_text hNames).symm⟩

end BmsBridge
