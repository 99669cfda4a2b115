import OraDesktop.Lib.Fallible
import OraDesktop.Text

/-!
# Portable relative paths

`PortableRelativePath::parse`: untrusted relative paths in slash-separated
canonical form, with the same answer on every host. A workflow variable of type `file` holds such
a path, in the form that `parse` leaves alone (`parse_normalized`).
-/

namespace OraDesktop

open List Text

inductive PortableRelativePathError where
  | rooted
  | windowsPrefix
  | windowsReservedName
  | parentTraversal
  | nulByte

/-- A parsed path; `normalized` is its slash-separated form. -/
structure PortableRelativePath where
  normalized : String

namespace PortableRelativePath

/-- `has_windows_prefix`: a drive letter or a UNC prefix. -/
def hasWindowsPrefix : List Char → Bool
  | '/' :: '/' :: _ => true
  | '\\' :: '\\' :: _ => true
  | c :: ':' :: _ => c.isAlpha
  | _ => false

/-- `is_windows_reserved_device_name`: the stem before the first dot names a device. -/
def isWindowsReservedDeviceName (segment : List Char) : Bool :=
  let stem := Text.dropEndWhile (fun c => c == ' ' || c == '.') (segment.takeWhile (· != '.'))
  let upper := stem.map Char.toUpper
  upper ∈ ["CON", "PRN", "AUX", "NUL"].map String.toList ||
    (upper.length == 4 && upper.take 3 ∈ ["COM", "LPT"].map String.toList &&
      (stem.getD 3 ' ').toNat ∈ List.range' 49 9)

/-- Checks one segment of `parse`'s loop and adds it to the segments kept so far. -/
def pushSegment (segments : List (List Char)) (segment : List Char) :
    Except PortableRelativePathError (List (List Char)) :=
  if segment = [] ∨ segment = ['.'] then .ok segments
  else if segment = ['.', '.'] then .error .parentTraversal
  else if hasWindowsPrefix segment then .error .windowsPrefix
  else if isWindowsReservedDeviceName segment then .error .windowsReservedName
  else .ok (segments ++ [segment])

def parse (value : String) : Except PortableRelativePathError PortableRelativePath :=
  let cs := value.toList
  if '\x00' ∈ cs then .error .nulByte
  else if hasWindowsPrefix cs then .error .windowsPrefix
  else if cs.head? = some '/' ∨ cs.head? = some '\\' then .error .rooted
  else do
    let segments ← (Text.splitChars (fun c => c == '/' || c == '\\') cs).foldlM pushSegment []
    return ⟨Text.join "/" (segments.map String.ofList)⟩

/-- `is_root`: the path denotes the containing root. -/
def isRoot (path : PortableRelativePath) : Bool := path.normalized.isEmpty

/-! ### Canonical paths -/

/-- A segment that `parse` keeps: what it drops or refuses is none of these. -/
structure Kept (segment : List Char) : Prop where
  ne_nil : segment ≠ []
  ne_dot : segment ≠ ['.']
  ne_dots : segment ≠ ['.', '.']
  unprefixed : hasWindowsPrefix segment = false
  not_reserved : isWindowsReservedDeviceName segment = false

theorem pushSegment_eq_ok {segments kept : List (List Char)} {segment : List Char}
    (h : pushSegment segments segment = .ok kept) :
    kept = segments ∨ Kept segment ∧ kept = segments ++ [segment] := by
  rw [pushSegment] at h
  split at h
  · exact .inl (Except.ok.inj h).symm
  rename_i hne
  split at h
  · cases h
  rename_i hdots
  split at h
  · cases h
  rename_i hprefixed
  split at h
  · cases h
  · rename_i hreserved
    rw [not_or] at hne
    exact .inr ⟨⟨hne.1, hne.2, hdots, by simpa using hprefixed, by simpa using hreserved⟩,
      (Except.ok.inj h).symm⟩

theorem foldlM_pushSegment_eq_ok {words segments kept : List (List Char)}
    (h : words.foldlM pushSegment segments = .ok kept) :
    ∃ added, kept = segments ++ added ∧ ∀ segment ∈ added, Kept segment ∧ segment ∈ words := by
  induction words generalizing segments with
  | nil =>
    cases h
    exact ⟨[], (append_nil _).symm, forall_mem_nil _⟩
  | cons word words ih =>
    rw [foldlM_cons] at h
    obtain ⟨pushed, hpush, hrest⟩ := Fallible.bind_eq_ok.mp h
    obtain ⟨added, rfl, hadded⟩ := ih hrest
    have hlater : ∀ segment ∈ added, Kept segment ∧ segment ∈ word :: words := fun segment hmem =>
      ⟨(hadded segment hmem).1, mem_cons_of_mem _ (hadded segment hmem).2⟩
    rcases pushSegment_eq_ok hpush with rfl | ⟨hkept, rfl⟩
    · exact ⟨added, rfl, hlater⟩
    · exact ⟨word :: added, by simp, forall_mem_cons.mpr ⟨⟨hkept, mem_cons_self⟩, hlater⟩⟩

theorem foldlM_pushSegment_of_kept {words : List (List Char)} (hkept : ∀ word ∈ words, Kept word)
    (segments : List (List Char)) : words.foldlM pushSegment segments = .ok (segments ++ words) := by
  induction words generalizing segments with
  | nil => simp [pure, Except.pure]
  | cons word words ih =>
    have hpush : pushSegment segments word = .ok (segments ++ [word]) := by
      have h := hkept word mem_cons_self
      simp [pushSegment, h.ne_nil, h.ne_dot, h.ne_dots, h.unprefixed, h.not_reserved]
    rw [foldlM_cons, hpush]
    exact (ih (fun w hw => hkept w (mem_cons_of_mem _ hw)) _).trans (by simp)

abbrev isSeparator (c : Char) : Bool := c == '/' || c == '\\'

theorem hasWindowsPrefix_append {segment rest : List Char} (hkept : Kept segment)
    (hsep : ∀ c ∈ segment, isSeparator c = false) :
    hasWindowsPrefix (segment ++ '/' :: rest) = false := by
  match segment, hkept, hsep with
  | [], hkept, _ => exact absurd rfl hkept.ne_nil
  | [c], hkept, hsep =>
    have hc := hsep c mem_cons_self
    simp only [isSeparator, Bool.or_eq_false_iff, beq_eq_false_iff_ne] at hc
    simp [hasWindowsPrefix, hc]
  | c :: d :: more, hkept, hsep =>
    -- only the first two characters matter
    rw [← hkept.unprefixed, hasWindowsPrefix.eq_def, hasWindowsPrefix.eq_def]
    split <;> split <;> simp_all

/-- Segments that `parse` keeps, joined, begin with the first of them. -/
theorem toList_join_cons (segment : List Char) (rest : List (List Char)) :
    (Text.join "/" ((segment :: rest).map String.ofList)).toList = segment ∨
      ∃ more, (Text.join "/" ((segment :: rest).map String.ofList)).toList = segment ++ '/' :: more := by
  cases rest with
  | nil => exact .inl (by simp [join])
  | cons next rest =>
    exact .inr ⟨(join "/" ((next :: rest).map String.ofList)).toList, by simp [join]⟩

theorem mem_join {segments : List (List Char)} {c : Char}
    (h : c ∈ (Text.join "/" (segments.map String.ofList)).toList) :
    c = '/' ∨ ∃ segment ∈ segments, c ∈ segment := by
  induction segments with
  | nil => simp [join] at h
  | cons segment rest ih =>
    cases rest with
    | nil => exact .inr ⟨segment, mem_cons_self, by simpa [join] using h⟩
    | cons next rest =>
      rw [map_cons, map_cons, join, String.toList_append, String.toList_append,
        String.toList_ofList, mem_append, mem_append] at h
      · rcases h with (h | h) | h
        · exact .inr ⟨segment, mem_cons_self, h⟩
        · exact .inl (by simpa using h)
        · rcases ih h with rfl | ⟨found, hfound, hc⟩
          · exact .inl rfl
          · exact .inr ⟨found, mem_cons_of_mem _ hfound, hc⟩
      · exact cons_ne_nil _ _

/-- Segments that `parse` keeps, joined, are parsed to themselves. -/
theorem parse_join {segments : List (List Char)} (hkept : ∀ segment ∈ segments, Kept segment)
    (hsep : ∀ segment ∈ segments, ∀ c ∈ segment, isSeparator c = false ∧ c ≠ '\x00') :
    parse (Text.join "/" (segments.map String.ofList)) =
      .ok ⟨Text.join "/" (segments.map String.ofList)⟩ := by
  cases segments with
  | nil => rfl
  | cons segment rest =>
    have hfirst := hkept segment mem_cons_self
    have hchars := fun c hc => (hsep segment mem_cons_self c hc).1
    have hnul : '\x00' ∉ (join "/" ((segment :: rest).map String.ofList)).toList := by
      intro hmem
      rcases mem_join hmem with heq | ⟨found, hfound, hc⟩
      · simp at heq
      · exact (hsep found hfound _ hc).2 rfl
    have hwindows : hasWindowsPrefix
        (join "/" ((segment :: rest).map String.ofList)).toList = false := by
      rcases toList_join_cons segment rest with heq | ⟨more, heq⟩ <;> rw [heq]
      · exact hfirst.unprefixed
      · exact hasWindowsPrefix_append hfirst hchars
    have hhead : ∀ c, (join "/" ((segment :: rest).map String.ofList)).toList.head? = some c →
        isSeparator c = false := by
      intro c hc
      obtain ⟨d, more, rfl⟩ := exists_cons_of_ne_nil hfirst.ne_nil
      have hd : c = d := by
        rcases toList_join_cons (d :: more) rest with heq | ⟨_, heq⟩ <;>
          · rw [heq] at hc
            simpa using hc.symm
      rw [hd]
      exact hchars d mem_cons_self
    have hsplit := splitChars_join isSeparator '/' rfl (segment :: rest)
      (cons_ne_nil _ _) fun word hw c hc => (hsep word hw c hc).1
    rw [parse, if_neg hnul, if_neg (Bool.eq_false_iff.mp hwindows), if_neg]
    · rw [show String.singleton '/' = "/" from rfl] at hsplit
      rw [hsplit, foldlM_pushSegment_of_kept hkept]
      rfl
    · rintro (h | h) <;> exact absurd (hhead _ h) (by decide)

/-- Parsing what `parse` returned changes nothing. -/
theorem parse_normalized {value : String} {path : PortableRelativePath} (h : parse value = .ok path) :
    parse path.normalized = .ok path := by
  rw [parse] at h
  split at h
  · cases h
  rename_i hnul
  split at h
  · cases h
  split at h
  · cases h
  obtain ⟨segments, hsegments, h⟩ := Fallible.bind_eq_ok.mp h
  cases h
  obtain ⟨added, rfl, hadded⟩ := foldlM_pushSegment_eq_ok hsegments
  refine parse_join (fun s hs => (hadded s hs).1) fun s hs c hc => ?_
  obtain ⟨hsep, hmem⟩ := not_sep_of_mem_splitChars (hadded s hs).2 c hc
  exact ⟨hsep, fun hc => hnul (hc ▸ hmem)⟩

end PortableRelativePath

end OraDesktop
