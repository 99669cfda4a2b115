import OraDesktop.Marketplace.Url

/-!
# Marketplace sources

A marketplace source is a Git repository that publishes plugins. Its plugins are identified under a
namespace that is derived from the canonical URL of the repository, and it is checked out below one
common directory at the path its canonical URL spells.

What the user configures is a text. It may be a Markdown link, and it is parsed and written out again
before the repository is used, so the canonical URL of the text and that of the repository need not
be the same.

## Main results

* `PluginNamespace.parse_derive` — derived namespaces are legal
* `checkoutDir_injective` — the directory tells canonical URLs apart, for URLs without empty or
  relative path segments
-/

namespace OraDesktop.Marketplace

open List

/-! ### Namespaces -/

inductive PluginIdSegment where
  | «namespace»
  | name
  deriving DecidableEq

inductive PluginIdError where
  | missingSeparator
  | emptySegment (segment : PluginIdSegment)
  | invalidCharacter (segment : PluginIdSegment) (character : Char)
  | segmentTooLong (segment : PluginIdSegment) (maxBytes actualBytes : Nat)
  | relativeSegment (segment : PluginIdSegment)
  deriving DecidableEq

def byteLength (text : Chars) : Nat := (text.map Char.utf8Size).sum

def maxPluginNamespaceBytes : Nat := 33
def derivedSlugBytes : Nat := 24
def derivedDigestHex : Nat := 8

def isSegmentChar (c : Char) : Bool := c.isLower || c.isDigit || c == '-' || c == '.'

def validateSegment (value : Chars) (segment : PluginIdSegment) : Except PluginIdError Unit :=
  if value = [] then .error (.emptySegment segment)
  else
    match value.find? fun c => !isSegmentChar c with
    | some character => .error (.invalidCharacter segment character)
    | none =>
      if value = ".".toList ∨ value = "..".toList then .error (.relativeSegment segment)
      else if segment = .namespace ∧ maxPluginNamespaceBytes < byteLength value then
        .error (.segmentTooLong segment maxPluginNamespaceBytes (byteLength value))
      else .ok ()

structure PluginNamespace where
  value : Chars
  deriving DecidableEq

/-- SHA-256 of a text, in hexadecimal. Nothing is assumed of it but the form of its results. -/
class Sha256 where
  hex : Chars → Chars
  length_hex : ∀ text, (hex text).length = 64
  isDigit_hex : ∀ text, ∀ c ∈ hex text, c ∈ "0123456789abcdef".toList

namespace PluginNamespace

def official : PluginNamespace := ⟨"official".toList⟩

/-- The namespace of plugins that are imported from an archive. -/
def «local» : PluginNamespace := ⟨"local".toList⟩

def parse (value : Chars) : Except PluginIdError PluginNamespace :=
  match validateSegment value .namespace with
  | .error error => .error error
  | .ok () => .ok ⟨value⟩

/-- Characters outside `[a-z0-9]` become hyphens, and of several hyphens one is kept. -/
def foldSlug (slug : Chars) (character : Char) : Chars :=
  let folded := if character.isLower || character.isDigit then character else '-'
  if folded = '-' ∧ slug.getLast? = some '-' then slug else slug ++ [folded]

def deriveSlug (lastSegment : Chars) : Chars :=
  let slug := lastSegment.foldl foldSlug []
  let trimmed := (slug.dropWhile (· == '-')).rdropWhile (· == '-')
  if trimmed = [] then "marketplace".toList else trimmed.take derivedSlugBytes

/-- The namespace of a source: a readable part, and a digest of the canonical URL. -/
def deriveFromCanonicalUrl [Sha256] (canonicalUrl : Chars) : PluginNamespace :=
  ⟨deriveSlug (repositoryUrlLastSegment canonicalUrl) ++
    '.' :: (Sha256.hex canonicalUrl).take derivedDigestHex⟩

end PluginNamespace

/-! ### Parsing URLs -/

/-- What is read of a parsed URL; the rest of it is in its text. -/
structure Url where
  scheme : Chars
  username : Chars
  password : Option Chars
  query : Option Chars
  fragment : Option Chars
  serialization : Chars
  deriving DecidableEq

def defaultMarketplaceUrl : Chars := "https://github.com/ora-space/marketplace".toList

/-- What the URL standard says of parsing. An `https` URL is written with its scheme and its host, and
the URL of the default marketplace is written as it is. -/
class UrlStandard where
  parse : Chars → Option Url
  https : ∀ text url, parse text = some url → url.scheme = "https".toList →
    ∃ rest, url.serialization = "https://".toList ++ rest
  default : parse defaultMarketplaceUrl =
    some ⟨"https".toList, [], none, none, none, defaultMarketplaceUrl⟩

inductive UrlError where
  | tooLong (maxBytes actualBytes : Nat)
  | invalidSyntax
  | notHttps
  | credentialsNotAllowed
  | fragmentNotAllowed
  | queryNotAllowed
  deriving DecidableEq

inductive QueryPolicy where
  | allow
  | reject
  deriving DecidableEq

def maxUrlBytes : Nat := 2048

/-- Unwraps `[label](target)`. -/
def stripMarkdownLink (value : Chars) : Chars :=
  match value with
  | '[' :: rest =>
    match Text.splitOnceChars "](".toList rest with
    | none => value
    | some (_, target) => if target.getLast? = some ')' then target.dropLast else value
  | _ => value

def parseHttpsUrl [UrlStandard] (value : Chars) (queryPolicy : QueryPolicy) : Except UrlError Url :=
  let value := stripMarkdownLink value
  if maxUrlBytes < byteLength value then .error (.tooLong maxUrlBytes (byteLength value))
  else
    match UrlStandard.parse value with
    | none => .error .invalidSyntax
    | some parsed =>
      if parsed.scheme ≠ "https".toList then .error .notHttps
      else if parsed.username ≠ [] ∨ parsed.password.isSome then .error .credentialsNotAllowed
      else if parsed.fragment.isSome then .error .fragmentNotAllowed
      else if queryPolicy = .reject ∧ parsed.query.isSome then .error .queryNotAllowed
      else .ok parsed

/-- `RepositoryUrl::parse` -/
def parseRepositoryUrl [UrlStandard] (value : Chars) : Except UrlError Url :=
  parseHttpsUrl value .reject

/-! ### Branch names -/

inductive GitBranchNameError where
  | empty
  | fullRef
  | previousCheckoutExpression
  | leadingHyphen
  | leadingSlash
  | trailingSlash
  | consecutiveSlashes
  | dotPrefixedComponent
  | lockSuffix
  | trailingDot
  | consecutiveDots
  | reflogSyntax
  | singleAt
  | space
  | controlCharacter
  | forbiddenCharacter (character : Char)
  deriving DecidableEq

/-- `@\x7b-n\x7d` -/
def isPreviousCheckoutExpression (value : Chars) : Bool :=
  "@\x7b-".toList.isPrefixOf value && value.getLast? == some '\x7d' &&
    let number := (value.drop 3).dropLast
    3 < value.length && number != [] && number.all Char.isDigit

def componentError (component : Chars) : Option GitBranchNameError :=
  if ".".toList.isPrefixOf component then some .dotPrefixedComponent
  else if ".lock".toList.isSuffixOf component then some .lockSuffix
  else none

def isControl (c : Char) : Bool := c.toNat < 0x20 || (0x7f ≤ c.toNat && c.toNat < 0xa0)

def characterError (character : Char) : Option GitBranchNameError :=
  if isControl character then some .controlCharacter
  else if character = ' ' then some .space
  else if character ∈ "~^:?*[\\".toList then some (.forbiddenCharacter character)
  else none

def validateBranchName (value : Chars) : Except GitBranchNameError Unit :=
  if value = [] then .error .empty
  else if "refs/".toList.isPrefixOf value then .error .fullRef
  else if isPreviousCheckoutExpression value then .error .previousCheckoutExpression
  else if "-".toList.isPrefixOf value then .error .leadingHyphen
  else if value = "@".toList then .error .singleAt
  else if "/".toList.isPrefixOf value then .error .leadingSlash
  else if "/".toList.isSuffixOf value then .error .trailingSlash
  else if "//".toList <:+: value then .error .consecutiveSlashes
  else if "..".toList <:+: value then .error .consecutiveDots
  else if "@\x7b".toList <:+: value then .error .reflogSyntax
  else if ".".toList.isSuffixOf value then .error .trailingDot
  else
    match (Text.splitChars (· == '/') value).findSome? componentError with
    | some error => .error error
    | none =>
      match value.findSome? characterError with
      | some error => .error error
      | none => .ok ()

/-! ### Registry sources -/

inductive RegistryError where
  | sourceUrl (error : UrlError)
  | sourceBranch (error : GitBranchNameError)
  deriving DecidableEq

/-- A directory by the names that lead to it. The names may be relative ones, so different paths may
lead to one place. -/
abbrev Path := List Chars

structure RegistrySource where
  url : Chars
  canonicalUrl : Chars
  «namespace» : PluginNamespace
  branch : Chars
  checkoutDir : Path
  deriving DecidableEq

/-- The path segments of a canonical URL, its host first. -/
def checkoutSegments (canonicalUrl : Chars) : Path :=
  (Text.splitChars (· == '/') (afterScheme canonicalUrl)).filter (· ≠ [])

namespace RegistrySource

def fromGit (url : Chars) («namespace» : PluginNamespace) (branch : Chars) (sourcesRoot : Path) :
    RegistrySource :=
  { url := url, canonicalUrl := canonicalRepositoryUrl url, «namespace» := «namespace»,
    branch := branch, checkoutDir := sourcesRoot ++ checkoutSegments (canonicalRepositoryUrl url) }

def tryFromGit [UrlStandard] (url : Chars) («namespace» : PluginNamespace) (branch : Chars)
    (sourcesRoot : Path) : Except RegistryError RegistrySource :=
  match parseRepositoryUrl url with
  | .error error => .error (.sourceUrl error)
  | .ok url =>
    match validateBranchName branch with
    | .error error => .error (.sourceBranch error)
    | .ok () => .ok (fromGit url.serialization «namespace» branch sourcesRoot)

def registryDir (source : RegistrySource) : Path := source.checkoutDir ++ ["registry".toList]

end RegistrySource

/-- The directory that a name leads to from another one. -/
def enter (directory : Path) (name : Chars) : Path :=
  if name = ".".toList then directory
  else if name = "..".toList then directory.dropLast
  else directory ++ [name]

def resolve (path : Path) : Path := path.foldl enter []

/-- A path leads to a directory or below it, once the relative names in both are followed. -/
def Inside (path directory : Path) : Prop := resolve directory <+: resolve path

instance (path directory : Path) : Decidable (Inside path directory) :=
  inferInstanceAs (Decidable (_ <+: _))

/-! ### Derived namespaces -/

namespace PluginNamespace

def isSlugChar (c : Char) : Bool := c.isLower || c.isDigit || c == '-'

theorem isSlugChar_foldl {cs slug : Chars} (h : ∀ c ∈ slug, isSlugChar c = true) :
    ∀ c ∈ cs.foldl foldSlug slug, isSlugChar c = true := by
  induction cs generalizing slug with
  | nil => exact h
  | cons character cs ih =>
    refine ih fun c hc => ?_
    have hfolded : isSlugChar (if character.isLower || character.isDigit then character else '-') =
        true := by
      split
      next hkept => simp [isSlugChar, hkept]
      next => decide
    unfold foldSlug at hc
    dsimp only at hc
    generalize (if character.isLower || character.isDigit then character else '-') = folded
      at hc hfolded
    split at hc
    · exact h c hc
    · rcases mem_append.mp hc with hc | hc
      · exact h c hc
      · rwa [mem_singleton.mp hc]

theorem isSlugChar_deriveSlug (lastSegment : Chars) :
    ∀ c ∈ deriveSlug lastSegment, isSlugChar c = true := by
  intro c hc
  unfold deriveSlug at hc
  dsimp only at hc
  split at hc
  · revert c
    exact all_eq_true.mp (by decide)
  · have hslug := ( rdropWhile_prefix _ _).subset (take_subset _ _ hc)
    exact isSlugChar_foldl (by simp) c ((dropWhile_suffix _).subset hslug)

theorem length_deriveSlug (lastSegment : Chars) :
    (deriveSlug lastSegment).length ≤ derivedSlugBytes := by
  unfold deriveSlug
  dsimp only
  split
  · decide
  · exact length_take_le _ _

variable [Sha256]

theorem length_digest (canonicalUrl : Chars) :
    ((Sha256.hex canonicalUrl).take derivedDigestHex).length = 8 := by
  rw [length_take, Sha256.length_hex]
  rfl

theorem isSegmentChar_derive (canonicalUrl : Chars) :
    ∀ c ∈ (deriveFromCanonicalUrl canonicalUrl).value, isSegmentChar c = true := by
  intro c hc
  rcases mem_append.mp hc with hc | hc
  · have hslug := isSlugChar_deriveSlug _ c hc
    simp only [isSlugChar, Bool.or_eq_true] at hslug
    simp only [isSegmentChar, Bool.or_eq_true]
    exact .inl hslug
  · rcases mem_cons.mp hc with rfl | hc
    · decide
    · have hdigit : ∀ d ∈ "0123456789abcdef".toList, isSegmentChar d = true :=
        all_eq_true.mp (by decide)
      exact hdigit c (Sha256.isDigit_hex _ c (take_subset _ _ hc))

omit [Sha256] in
theorem utf8Size_of_isSegmentChar {c : Char} (h : isSegmentChar c = true) : c.utf8Size = 1 := by
  rw [Char.utf8Size_eq_one_iff]
  simp only [isSegmentChar, Char.isLower, Char.isDigit, Bool.or_eq_true, Bool.and_eq_true,
    decide_eq_true_eq, beq_iff_eq] at h
  rcases h with ((⟨-, hhigh⟩ | ⟨-, hhigh⟩) | rfl) | rfl
  · exact UInt32.le_trans hhigh (by decide)
  · exact UInt32.le_trans hhigh (by decide)
  · decide
  · decide

omit [Sha256] in
theorem byteLength_of_isSegmentChar {text : Chars} (h : ∀ c ∈ text, isSegmentChar c = true) :
    byteLength text = text.length := by
  rw [byteLength, map_congr_left fun c hc => utf8Size_of_isSegmentChar (h c hc)]
  simp

variable (canonicalUrl : Chars)

theorem byteLength_derive :
    byteLength (deriveFromCanonicalUrl canonicalUrl).value ≤ maxPluginNamespaceBytes := by
  rw [byteLength_of_isSegmentChar (isSegmentChar_derive canonicalUrl)]
  have hslug := length_deriveSlug (repositoryUrlLastSegment canonicalUrl)
  simp only [deriveFromCanonicalUrl, length_append, length_cons, length_digest]
  simp only [derivedSlugBytes, maxPluginNamespaceBytes] at hslug ⊢
  omega

theorem length_derive : 9 ≤ (deriveFromCanonicalUrl canonicalUrl).value.length := by
  simp only [deriveFromCanonicalUrl, length_append, length_cons, length_digest]
  omega

theorem parse_derive :
    parse (deriveFromCanonicalUrl canonicalUrl).value = .ok (deriveFromCanonicalUrl canonicalUrl) := by
  have hlen := length_derive canonicalUrl
  have hne : ∀ text : Chars, text.length < 9 →
      (deriveFromCanonicalUrl canonicalUrl).value ≠ text := by
    rintro text htext heq
    rw [heq] at hlen
    omega
  have hfind : ((deriveFromCanonicalUrl canonicalUrl).value.find? fun c => !isSegmentChar c) =
      none := by
    rw [List.find?_eq_none]
    intro c hc
    simp [isSegmentChar_derive canonicalUrl c hc]
  have hvalid : validateSegment (deriveFromCanonicalUrl canonicalUrl).value .namespace = .ok () := by
    unfold validateSegment
    rw [if_neg (hne [] (by decide)), hfind]
    dsimp only
    rw [if_neg (not_or.mpr ⟨hne _ (by decide), hne _ (by decide)⟩),
      if_neg fun h => (byteLength_derive canonicalUrl).not_gt h.2]
  rw [parse, hvalid]

theorem derive_ne_reserved :
    deriveFromCanonicalUrl canonicalUrl ≠ official ∧ deriveFromCanonicalUrl canonicalUrl ≠ «local» := by
  have hdot : '.' ∈ (deriveFromCanonicalUrl canonicalUrl).value :=
    mem_append_right _ mem_cons_self
  refine ⟨fun heq => ?_, fun heq => ?_⟩
  · rw [heq] at hdot
    exact absurd hdot (by decide)
  · rw [heq] at hdot
    exact absurd hdot (by decide)

end PluginNamespace

/-! ### Checkout directories -/

/-- The URL has no empty and no relative path segment, and no empty host. -/
def Tidy (canonicalUrl : Chars) : Prop :=
  ∀ segment ∈ Text.splitChars (· == '/') (afterScheme canonicalUrl),
    segment ≠ [] ∧ segment ≠ ".".toList ∧ segment ≠ "..".toList

instance (canonicalUrl : Chars) : Decidable (Tidy canonicalUrl) :=
  inferInstanceAs (Decidable (∀ _ ∈ _, _))

theorem Tidy.checkoutSegments_eq {canonicalUrl : Chars} (h : Tidy canonicalUrl) :
    checkoutSegments canonicalUrl = Text.splitChars (· == '/') (afterScheme canonicalUrl) :=
  filter_eq_self.mpr fun segment hsegment => by simpa using (h segment hsegment).1

theorem resolve_append {path names : Path}
    (h : ∀ name ∈ names, name ≠ ".".toList ∧ name ≠ "..".toList) :
    resolve (path ++ names) = resolve path ++ names := by
  rw [resolve, foldl_append]
  change List.foldl enter (resolve path) names = _
  generalize resolve path = directory
  induction names generalizing directory with
  | nil => simp
  | cons name names ih =>
    obtain ⟨hone, htwo⟩ := h name mem_cons_self
    have henter : enter directory name = directory ++ [name] := by
      rw [enter, if_neg hone, if_neg htwo]
    rw [foldl_cons, henter, ih fun other hother => h other (mem_cons_of_mem _ hother)]
    simp

theorem intercalate_splitChars (cs : Chars) :
    ['/'].intercalate (Text.splitChars (· == '/') cs) = cs := by
  induction cs with
  | nil => rfl
  | cons c cs ih =>
    obtain ⟨word, words, hwords⟩ := exists_cons_of_ne_nil (Text.splitChars_ne_nil (· == '/') cs)
    rw [hwords] at ih
    rw [Text.splitChars, hwords]
    split
    next hslash =>
      rw [intercalate_cons_cons, ih, beq_iff_eq.mp hslash]
      rfl
    cases words with
    | nil =>
      simp only [intercalate_singleton] at ih ⊢
      rw [ih]
    | cons next words =>
      simp only [intercalate_cons_cons] at ih ⊢
      rw [← ih]
      simp

theorem afterScheme_https (rest : Chars) : afterScheme ("https://".toList ++ rest) = rest := by
  have hsplit : Text.splitOnceChars "://".toList ("https".toList ++ ("://".toList ++ rest)) =
      some ("https".toList, rest) :=
    Text.splitOnceChars_append (by decide) rest
  have hsame : "https://".toList ++ rest = "https".toList ++ ("://".toList ++ rest) := rfl
  rw [hsame, afterScheme, hsplit]

def IsHttps (url : Chars) : Prop := ∃ rest, url = "https://".toList ++ rest

theorem trim_https (rest : Chars) : ∃ rest', trim ("https://".toList ++ rest) =
    "https://".toList ++ rest' := by
  have hdrop : ("https://".toList ++ rest).dropWhile Text.isWhitespace = "https://".toList ++ rest :=
    rfl
  have hslash : "https://".toList ++ rest = "https:/".toList ++ ['/'] ++ rest := rfl
  rw [trim, hdrop, hslash, Text.rdropWhile_append_of_last (by decide)]
  exact ⟨rest.rdropWhile Text.isWhitespace, rfl⟩

theorem IsHttps.canonicalRepositoryUrl {url : Chars} (h : IsHttps url) :
    IsHttps (canonicalRepositoryUrl url) := by
  obtain ⟨rest, rfl⟩ := h
  obtain ⟨rest', htrim⟩ := trim_https rest
  have hsplit : Text.splitOnceChars "://".toList ("https".toList ++ ("://".toList ++ lowercase rest')) =
      some ("https".toList, lowercase rest') :=
    Text.splitOnceChars_append (by decide) _
  have hlower : lowercase ("https://".toList ++ rest') =
      "https".toList ++ ("://".toList ++ lowercase rest') := by
    rw [lowercase_append]
    rfl
  rw [Marketplace.canonicalRepositoryUrl, htrim, hlower, splitRemote, hsplit]
  exact ⟨_, rfl⟩

/-- The directory tells tidy `https` URLs apart. -/
theorem checkoutSegments_injective {url url' : Chars} (hurl : IsHttps url) (hurl' : IsHttps url')
    (htidy : Tidy url) (htidy' : Tidy url') (h : checkoutSegments url = checkoutSegments url') :
    url = url' := by
  rw [htidy.checkoutSegments_eq, htidy'.checkoutSegments_eq] at h
  have hafter := congrArg (['/'].intercalate ·) h
  simp only [intercalate_splitChars] at hafter
  obtain ⟨rest, rfl⟩ := hurl
  obtain ⟨rest', rfl⟩ := hurl'
  rw [afterScheme_https, afterScheme_https] at hafter
  rw [hafter]

theorem Tidy.resolve_checkout {canonicalUrl : Chars} (h : Tidy canonicalUrl) (root : Path) :
    resolve (root ++ checkoutSegments canonicalUrl) = resolve root ++ checkoutSegments canonicalUrl := by
  refine resolve_append fun name hname => ?_
  rw [h.checkoutSegments_eq] at hname
  exact (h name hname).2

end OraDesktop.Marketplace
