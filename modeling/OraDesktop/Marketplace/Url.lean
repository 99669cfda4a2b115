import Mathlib
import OraDesktop.Text

/-!
# Repository URLs

A repository is named by a URL text, and one repository has many texts. `canonicalRepositoryUrl`
takes them to one spelling: it drops surrounding whitespace, case, credentials, the default port of
the scheme, trailing slashes and one `.git` suffix.

The canonical text is canonicalised again in places. That changes it where dropping a suffix has
laid open another one, which is the case for a path that ends in `.git` twice, or whitespace.

## Main results

* `canonicalRepositoryUrl_idem_iff` — when canonicalising again changes nothing
* `Spelling.canonicalRepositoryUrl_eq_iff` — when two spellings of one repository have one canonical
  text
-/

namespace OraDesktop.Marketplace

open List

/-- Texts are handled as their characters: everything here is about what stands at their ends. -/
abbrev Chars := List Char

/-! ### The parts of a URL text -/

/-- A URL text in parts: what comes before `://`, what comes before the first slash of the rest, and
the rest. -/
structure Remote where
  scheme : Option Chars
  authority : Chars
  path : Chars

def Remote.text (remote : Remote) : Chars :=
  match remote.scheme with
  | some scheme => scheme ++ ("://".toList ++ (remote.authority ++ remote.path))
  | none => remote.authority ++ remote.path

/-- A text without a scheme is an authority and a path. -/
def splitRemote (text : Chars) : Remote :=
  match Text.splitOnceChars "://".toList text with
  | some (scheme, rest) => ⟨some scheme, rest.takeWhile (· != '/'), rest.dropWhile (· != '/')⟩
  | none => ⟨none, text.takeWhile (· != '/'), text.dropWhile (· != '/')⟩

/-! ### Canonical texts -/

/-- Ports that carry no information because they are the scheme's default. -/
def defaultPorts : List (Chars × Chars) :=
  [("https".toList, "443".toList), ("http".toList, "80".toList), ("ssh".toList, "22".toList),
    ("git".toList, "9418".toList)]

/-- Drops everything up to and including the last `@`. -/
def stripUserinfo (authority : Chars) : Chars := authority.rtakeWhile (· != '@')

/-- Splits `host:port`; colons within the brackets of an IPv6 literal are not looked at. -/
def splitPort (authority : Chars) : Option (Chars × Chars) :=
  let tail := authority.rtakeWhile (· != ']')
  if ':' ∈ tail then
    some (authority.take (authority.length - tail.length) ++ tail.takeWhile (· != ':'),
      (tail.dropWhile (· != ':')).drop 1)
  else none

def stripDefaultPort (scheme : Option Chars) (authority : Chars) : Chars :=
  match scheme with
  | none => authority
  | some scheme =>
    match splitPort authority with
    | none => authority
    | some (host, port) => if (scheme, port) ∈ defaultPorts then host else authority

def stripTrailingSlashes (path : Chars) : Chars := path.rdropWhile (· == '/')

/-- Drops one `.git` suffix. Dropping one may lay another open, which is then kept. -/
def stripGit (path : Chars) : Chars :=
  if ".git".toList <:+ path then path.take (path.length - 4) else path

def Remote.canonical (remote : Remote) : Remote :=
  { scheme := remote.scheme
    authority := stripDefaultPort remote.scheme (stripUserinfo remote.authority)
    path := stripTrailingSlashes (stripGit (stripTrailingSlashes remote.path)) }

def trim (text : Chars) : Chars :=
  (text.dropWhile Text.isWhitespace).rdropWhile Text.isWhitespace

/-- `str::to_ascii_lowercase` -/
def lowercase (text : Chars) : Chars := text.map Char.toLower

def canonicalRepositoryUrl (url : Chars) : Chars :=
  (splitRemote (lowercase (trim url))).canonical.text

def afterScheme (url : Chars) : Chars :=
  match Text.splitOnceChars "://".toList url with
  | some (_, rest) => rest
  | none => url

/-- The last path segment of a canonical URL, empty when the URL carries no path. -/
def repositoryUrlLastSegment (canonicalUrl : Chars) : Chars :=
  let path := (afterScheme canonicalUrl).dropWhile (· != '/')
  ((Text.splitChars (· == '/') path).reverse.find? (· ≠ [])).getD []

/-! ### Ends of lists -/

section Ends

variable {p : Char → Bool}

theorem rdropWhile_append_of_forall {cs tail : Chars} (h : ∀ c ∈ tail, p c = true) :
    (cs ++ tail).rdropWhile p = cs.rdropWhile p := by
  rw [List.rdropWhile, List.rdropWhile, reverse_append, dropWhile_append_of_pos]
  exact fun c hc => h c (mem_reverse.mp hc)

theorem rdropWhile_cases (p : Char → Bool) (cs : Chars) :
    cs.rdropWhile p = [] ∨ ∃ init last, cs.rdropWhile p = init ++ [last] ∧ p last = false := by
  rcases eq_nil_or_concat (cs.rdropWhile p) with hnil | ⟨init, last, hinit⟩
  · exact .inl hnil
  rw [concat_eq_append] at hinit
  have hne : cs.rdropWhile p ≠ [] := by
    rw [hinit]
    simp
  have hlast := rdropWhile_last_not p cs hne
  simp only [hinit, getLast_append_singleton] at hlast
  exact .inr ⟨init, last, hinit, by simpa using hlast⟩

theorem rtakeWhile_append_cons {front tail : Chars} {c : Char} (hc : p c = false)
    (htail : ∀ c ∈ tail, p c = true) : (front ++ c :: tail).rtakeWhile p = tail := by
  rw [List.rtakeWhile, reverse_append, reverse_cons, append_assoc,
    takeWhile_append_of_pos fun d hd => htail d (mem_reverse.mp hd)]
  simp [hc]

end Ends

/-! ### Splitting and putting together -/

theorem Remote.length_text (remote : Remote) :
    remote.text.length = (remote.scheme.map (·.length + 3)).getD 0 + remote.authority.length +
      remote.path.length := by
  rcases remote with ⟨_ | scheme, authority, path⟩
  · simp [Remote.text]
  · simp [Remote.text]
    omega

theorem splitRemote_text (text : Chars) : (splitRemote text).text = text := by
  unfold splitRemote
  split
  next scheme rest h =>
    obtain ⟨rfl, -⟩ := Text.splitOnceChars_eq_some (by decide) h
    simp [Remote.text]
  next => simp [Remote.text]

/-- What the parts of a text are like, which is what makes splitting undo putting together. -/
structure Remote.Parted (remote : Remote) : Prop where
  scheme : ∀ scheme, remote.scheme = some scheme → ∀ rest,
    Text.splitOnceChars "://".toList (scheme ++ ("://".toList ++ rest)) = some (scheme, rest)
  bare : remote.scheme = none → ¬"://".toList <:+: remote.text
  authority : '/' ∉ remote.authority
  path : remote.path = [] ∨ ∃ rest, remote.path = '/' :: rest

theorem dropWhile_ne_cases (cs : Chars) (c : Char) :
    cs.dropWhile (· != c) = [] ∨ ∃ rest, cs.dropWhile (· != c) = c :: rest := by
  cases h : cs.dropWhile (· != c) with
  | nil => exact .inl rfl
  | cons d rest =>
    have hd := List.head?_dropWhile_not (· != c) cs
    rw [h] at hd
    refine .inr ⟨rest, ?_⟩
    simpa using hd

theorem not_mem_takeWhile_ne (cs : Chars) (c : Char) : c ∉ cs.takeWhile (· != c) := by
  intro h
  simpa using mem_takeWhile_imp h

theorem parted_splitRemote (text : Chars) : (splitRemote text).Parted := by
  unfold splitRemote
  split
  next scheme rest h =>
    refine ⟨?_, fun h => ?_, not_mem_takeWhile_ne _ _, dropWhile_ne_cases _ _⟩
    · rintro _ ⟨⟩
      exact (Text.splitOnceChars_eq_some (by decide) h).2
    · cases h
  next h =>
    refine ⟨fun _ h => ?_, fun _ => ?_, not_mem_takeWhile_ne _ _, dropWhile_ne_cases _ _⟩
    · cases h
    · simpa [Remote.text] using (Text.splitOnceChars_eq_none_iff (by decide)).mp h

/-- Parts that are like the parts of a text are those of their text. -/
theorem Remote.Parted.splitRemote_eq {remote : Remote} (h : remote.Parted) :
    splitRemote remote.text = remote := by
  have htake : (remote.authority ++ remote.path).takeWhile (· != '/') = remote.authority := by
    rw [takeWhile_append_of_pos fun c hc => by
      simpa using fun heq : c = '/' => h.authority (heq ▸ hc)]
    rcases h.path with hpath | ⟨rest, hpath⟩ <;> simp [hpath]
  have hdrop : (remote.authority ++ remote.path).dropWhile (· != '/') = remote.path := by
    rw [dropWhile_append_of_pos fun c hc => by
      simpa using fun heq : c = '/' => h.authority (heq ▸ hc)]
    rcases h.path with hpath | ⟨rest, hpath⟩ <;> simp [hpath]
  rcases remote with ⟨_ | scheme, authority, path⟩
  · have hnone := (Text.splitOnceChars_eq_none_iff (by decide)).mpr (h.bare rfl)
    unfold splitRemote
    rw [hnone]
    simp only [Remote.text] at htake hdrop ⊢
    rw [htake, hdrop]
  · unfold splitRemote
    simp only [Remote.text, h.scheme scheme rfl]
    rw [htake, hdrop]

/-! ### Canonicalising twice -/

theorem splitPort_eq_some {authority host port : Chars}
    (h : splitPort authority = some (host, port)) :
    authority = host ++ ':' :: port ∧ splitPort host = none := by
  unfold splitPort at h
  dsimp only at h
  split at h
  next hcolon =>
    have hfront : authority.rdropWhile (· != ']') ++ authority.rtakeWhile (· != ']') = authority :=
      rdropWhile_append_rtakeWhile
    set tail := authority.rtakeWhile (· != ']')
    set front := authority.rdropWhile (· != ']')
    have htake : authority.take (authority.length - tail.length) = front := by
      rw [← hfront]
      simp
    rw [htake] at h
    cases h
    have hsplit : tail.dropWhile (· != ':') = ':' :: (tail.dropWhile (· != ':')).drop 1 := by
      rcases dropWhile_ne_cases tail ':' with hnil | ⟨rest, hrest⟩
      · have hall := dropWhile_eq_nil_iff.mp hnil ':' hcolon
        simp at hall
      · rw [hrest]
        rfl
    refine ⟨?_, ?_⟩
    · rw [append_assoc, ← hsplit, takeWhile_append_dropWhile, hfront]
    · -- after the last bracket the host has no colon
      have hno : ∀ c ∈ tail.takeWhile (· != ':'), (c != ']') = true := fun c hc =>
        mem_rtakeWhile_imp (p := (· != ']')) (( takeWhile_prefix _).subset hc)
      have hhost : (front ++ tail.takeWhile (· != ':')).rtakeWhile (· != ']') =
          tail.takeWhile (· != ':') := by
        rcases rdropWhile_cases (· != ']') authority with hnil | ⟨init, last, hinit, hlast⟩
        · have hfrontnil : front = [] := hnil
          rw [hfrontnil]
          exact rtakeWhile_eq_self_iff.mpr hno
        · have hfrontinit : front = init ++ [last] := hinit
          rw [hfrontinit, append_assoc, singleton_append]
          exact rtakeWhile_append_cons hlast hno
      unfold splitPort
      dsimp only
      rw [hhost, if_neg (not_mem_takeWhile_ne tail ':')]
  next => cases h

theorem prefix_stripDefaultPort (scheme : Option Chars) (authority : Chars) :
    stripDefaultPort scheme authority <+: authority := by
  unfold stripDefaultPort
  split
  · exact prefix_rfl
  split
  · exact prefix_rfl
  next hsplit =>
    split
    · exact ⟨_, (splitPort_eq_some hsplit).1.symm⟩
    · exact prefix_rfl

theorem stripDefaultPort_idem (scheme : Option Chars) (authority : Chars) :
    stripDefaultPort scheme (stripDefaultPort scheme authority) =
      stripDefaultPort scheme authority := by
  cases scheme with
  | none => rfl
  | some scheme =>
    rcases hsplit : splitPort authority with _ | ⟨host, port⟩
    · simp [stripDefaultPort, hsplit]
    · by_cases hdefault : (scheme, port) ∈ defaultPorts
      · simp [stripDefaultPort, hsplit, hdefault, (splitPort_eq_some hsplit).2]
      · simp [stripDefaultPort, hsplit, hdefault]

theorem prefix_stripGit (path : Chars) : stripGit path <+: path := by
  unfold stripGit
  split
  · exact take_prefix _ _
  · exact prefix_rfl

theorem Remote.canonical_path_le (remote : Remote) : remote.canonical.path <+: remote.path :=
  ( rdropWhile_prefix _ _).trans ((prefix_stripGit _).trans ( rdropWhile_prefix _ _))

theorem Remote.canonical_authority_le (remote : Remote) :
    remote.canonical.authority <:+: remote.authority :=
  (prefix_stripDefaultPort _ _).isInfix.trans (rtakeWhile_suffix _ _).isInfix

theorem Remote.canonical_text_sublist (remote : Remote) : remote.canonical.text <+ remote.text := by
  have hrest := remote.canonical_authority_le.sublist.append remote.canonical_path_le.sublist
  have hscheme : remote.canonical.scheme = remote.scheme := rfl
  simp only [Remote.text, hscheme]
  split
  · exact (hrest.append_left _).append_left _
  · exact hrest

theorem Remote.Parted.canonical {remote : Remote} (h : remote.Parted) :
    remote.canonical.Parted := by
  refine ⟨h.scheme, fun hnone => ?_, fun hmem => ?_, ?_⟩
  · -- without a scheme only the ends of the text are dropped
    have hscheme : remote.scheme = none := hnone
    have hsuffix : remote.canonical.authority <:+ remote.authority := by
      simp only [Remote.canonical, hscheme, stripDefaultPort]
      exact rtakeWhile_suffix _ _
    obtain ⟨front, hfront⟩ := hsuffix
    obtain ⟨back, hback⟩ := remote.canonical_path_le
    intro hocc
    refine h.bare hscheme (hocc.trans ⟨front, back, ?_⟩)
    simp only [Remote.text, hnone, hscheme]
    rw [← hfront, ← hback]
    simp
  · exact h.authority (remote.canonical_authority_le.subset hmem)
  · obtain ⟨back, hback⟩ := remote.canonical_path_le
    cases hpath : remote.canonical.path with
    | nil => exact .inl rfl
    | cons c rest =>
      rw [hpath] at hback
      rcases h.path with hnil | ⟨tail, htail⟩
      · rw [hnil] at hback
        cases hback
      · rw [htail] at hback
        cases hback
        exact .inr ⟨rest, rfl⟩

theorem stripTrailingSlashes_stripGit_eq_iff (path : Chars) :
    stripTrailingSlashes (stripGit (stripTrailingSlashes path)) = stripTrailingSlashes path ↔
      ¬".git".toList <:+ stripTrailingSlashes path := by
  constructor
  · intro heq hgit
    have hlen := ( rdropWhile_prefix (· == '/') (stripGit (stripTrailingSlashes path))).length_le
    have hshort : (stripGit (stripTrailingSlashes path)).length + 4 =
        (stripTrailingSlashes path).length := by
      have hfour : (".git".toList).length = 4 := by decide
      have hgitlen := hgit.length_le
      rw [stripGit, if_pos hgit, length_take]
      omega
    have hsame : (stripGit (stripTrailingSlashes path)).rdropWhile (· == '/') =
        stripTrailingSlashes path := heq
    rw [hsame] at hlen
    omega
  · intro hgit
    rw [stripGit, if_neg hgit]
    exact rdropWhile_idempotent _ _

/-- Canonical parts are canonical again unless `.git` has come to the end of the path. -/
theorem Remote.canonical_canonical_iff (remote : Remote) :
    remote.canonical.canonical.text = remote.canonical.text ↔
      ¬".git".toList <:+ remote.canonical.path := by
  have hslashes : stripTrailingSlashes remote.canonical.path = remote.canonical.path :=
    rdropWhile_idempotent _ _
  have hstable := stripTrailingSlashes_stripGit_eq_iff remote.canonical.path
  rw [hslashes] at hstable
  have hpath : remote.canonical.canonical.path = stripTrailingSlashes (stripGit remote.canonical.path) := by
    rw [Remote.canonical, hslashes]
  rw [← hstable, ← hpath]
  constructor
  · intro heq
    refine remote.canonical.canonical_path_le.eq_of_length_le ?_
    have hlen := congrArg List.length heq
    have hauthority := remote.canonical.canonical_authority_le.length_le
    have hscheme : remote.canonical.canonical.scheme = remote.canonical.scheme := rfl
    rw [Remote.length_text, Remote.length_text, hscheme] at hlen
    omega
  · intro hsame
    have hno : ∀ c ∈ remote.canonical.authority, (c != '@') = true := fun c hc =>
      mem_rtakeWhile_imp (p := (· != '@')) ((prefix_stripDefaultPort _ _).subset hc)
    have hauthority : remote.canonical.canonical.authority = remote.canonical.authority := by
      show stripDefaultPort remote.scheme (stripUserinfo remote.canonical.authority) = _
      rw [stripUserinfo, rtakeWhile_eq_self_iff.mpr hno]
      exact stripDefaultPort_idem _ _
    rw [Remote.text, Remote.text, hauthority, hsame]
    rfl

theorem infix_trim (text : Chars) : trim text <:+: text :=
  ( rdropWhile_prefix _ _).isInfix.trans (dropWhile_suffix _).isInfix

theorem sublist_canonicalRepositoryUrl (url : Chars) :
    canonicalRepositoryUrl url <+ lowercase (trim url) := by
  have h := (splitRemote (lowercase (trim url))).canonical_text_sublist
  rwa [splitRemote_text] at h

theorem lowercase_canonicalRepositoryUrl (url : Chars) :
    lowercase (canonicalRepositoryUrl url) = canonicalRepositoryUrl url := by
  refine (map_congr_left fun c hc => ?_).trans (map_id _)
  obtain ⟨d, -, rfl⟩ := mem_map.mp ((sublist_canonicalRepositoryUrl url).subset hc)
  simp only [Char.toLower, id]
  grind

/-- A text without capitals that canonicalising changes gets shorter. -/
theorem length_canonicalRepositoryUrl_lt {url : Chars} (hlower : lowercase url = url)
    (hne : canonicalRepositoryUrl url ≠ url) : (canonicalRepositoryUrl url).length < url.length := by
  have hsublist := (sublist_canonicalRepositoryUrl url).trans
    ((infix_trim url).sublist.map Char.toLower)
  rw [show url.map Char.toLower = url from hlower] at hsublist
  exact lt_of_le_of_ne hsublist.length_le fun heq => hne (hsublist.eq_of_length heq)

/-- Dropping `.git` lays another one open where only slashes stand between the two. -/
theorem git_suffix_iff (path : Chars) :
    ".git".toList <:+ stripTrailingSlashes (stripGit (stripTrailingSlashes path)) ↔
      ∃ slashes, ".git".toList ++ (replicate slashes '/' ++ ".git".toList) <:+
        stripTrailingSlashes path := by
  have hidem : stripTrailingSlashes (stripTrailingSlashes path) = stripTrailingSlashes path :=
    rdropWhile_idempotent _ _
  generalize stripTrailingSlashes path = path at hidem ⊢
  have hstrip (front : Chars) : stripGit (front ++ ".git".toList) = front := by
    rw [stripGit, if_pos (suffix_append _ _)]
    simp
  constructor
  · intro h
    by_cases hgit : ".git".toList <:+ path
    · obtain ⟨front, rfl⟩ := hgit
      rw [hstrip] at h
      obtain ⟨rest, hrest⟩ := h
      have hslashes : front.rtakeWhile (· == '/') =
          replicate (front.rtakeWhile (· == '/')).length '/' :=
        eq_replicate_of_mem fun c hc => by simpa using mem_rtakeWhile_imp hc
      have hfront : stripTrailingSlashes front ++ front.rtakeWhile (· == '/') = front :=
        rdropWhile_append_rtakeWhile
      rw [← hrest, hslashes] at hfront
      refine ⟨(front.rtakeWhile (· == '/')).length, rest, ?_⟩
      rw [← append_assoc, ← append_assoc, hfront]
    · rw [stripGit, if_neg hgit, hidem] at h
      exact absurd h hgit
  · rintro ⟨slashes, rest, rfl⟩
    rw [← append_assoc, ← append_assoc, hstrip]
    refine ⟨rest, ?_⟩
    rw [stripTrailingSlashes, rdropWhile_append_of_forall fun c hc => by
      simp [eq_of_mem_replicate hc]]
    exact (rdropWhile_eq_self_iff.mpr fun _ => by simp).symm

/-- The parts of a text from which canonicalising drops at once all that it drops: the path does not
end in `.git` twice, and no whitespace comes to an end of the canonical text. -/
structure Remote.Settled (remote : Remote) : Prop where
  suffix : ∀ slashes, ¬".git".toList ++ (replicate slashes '/' ++ ".git".toList) <:+
    stripTrailingSlashes remote.path
  trimmed : trim remote.canonical.text = remote.canonical.text

/-- Canonicalising again changes nothing exactly where the parts of the text are settled. -/
theorem canonicalRepositoryUrl_idem_iff (url : Chars) :
    canonicalRepositoryUrl (canonicalRepositoryUrl url) = canonicalRepositoryUrl url ↔
      (splitRemote (lowercase (trim url))).Settled := by
  have hparts : splitRemote (canonicalRepositoryUrl url) =
      (splitRemote (lowercase (trim url))).canonical :=
    (parted_splitRemote _).canonical.splitRemote_eq
  have hsuffix := (Remote.canonical_canonical_iff (splitRemote (lowercase (trim url)))).trans
    ((git_suffix_iff _).not.trans not_exists)
  rw [← hparts] at hsuffix
  constructor
  · intro h
    have htrim : trim (canonicalRepositoryUrl url) = canonicalRepositoryUrl url := by
      refine (infix_trim _).eq_of_length_le ?_
      have hlen := (sublist_canonicalRepositoryUrl (canonicalRepositoryUrl url)).length_le
      rwa [h, lowercase, length_map] at hlen
    refine ⟨hsuffix.mp ?_, htrim⟩
    rw [splitRemote_text]
    rwa [canonicalRepositoryUrl, htrim, lowercase_canonicalRepositoryUrl] at h
  · rintro ⟨hgit, htrim⟩
    have htrim : trim (canonicalRepositoryUrl url) = canonicalRepositoryUrl url := htrim
    have h := hsuffix.mpr hgit
    conv_lhs => rw [canonicalRepositoryUrl, htrim, lowercase_canonicalRepositoryUrl]
    rw [h, splitRemote_text]

/-! ### Spellings of one repository -/

/-- A repository as one may spell it: with or without a scheme, credentials, a port and a `.git`
suffix, and with any number of trailing slashes. -/
structure Spelling where
  scheme : Option Chars
  userinfo : Option Chars
  host : Chars
  port : Option Chars
  path : Chars
  git : Bool
  slashes : Nat

namespace Spelling

section

variable (spelling : Spelling)

def authority : Chars :=
  (spelling.userinfo.map (· ++ ['@'])).getD [] ++
    (spelling.host ++ (spelling.port.map (':' :: ·)).getD [])

def fullPath : Chars :=
  spelling.path ++ ((if spelling.git then ".git".toList else []) ++
    List.replicate spelling.slashes '/')

def remote : Remote :=
  ⟨spelling.scheme, spelling.authority, spelling.fullPath⟩

def text : Chars := spelling.remote.text

end

/-- The parts are delimited as they are in a URL, and nothing is whitespace. -/
structure Valid (spelling : Spelling) : Prop where
  scheme : ∀ scheme, spelling.scheme = some scheme → ':' ∉ scheme
  bare : spelling.scheme = none → ¬"://".toList <:+: spelling.text
  userinfo : ∀ userinfo, spelling.userinfo = some userinfo → '/' ∉ userinfo
  host : '/' ∉ spelling.host ∧ '@' ∉ spelling.host ∧ splitPort spelling.host = none
  port : ∀ port, spelling.port = some port → '/' ∉ port ∧ '@' ∉ port ∧ ']' ∉ port
  path : spelling.path = [] ∨ ∃ rest, spelling.path = '/' :: rest
  git : spelling.git = true → spelling.path ≠ []
  printable : ∀ c ∈ spelling.text, Text.isWhitespace c = false

/-- The port, where it is not the default one of the scheme. -/
def ownPort (spelling : Spelling) : Option Chars :=
  match spelling.port with
  | none => none
  | some port =>
    match spelling.scheme with
    | none => some (lowercase port)
    | some scheme =>
      if (lowercase scheme, lowercase port) ∈ defaultPorts then none else some (lowercase port)

/-- Two spellings that differ in case, credentials, the default port, trailing slashes and a `.git`
suffix at most. -/
structure Same (x y : Spelling) : Prop where
  scheme : x.scheme.map lowercase = y.scheme.map lowercase
  host : lowercase x.host = lowercase y.host
  port : x.ownPort = y.ownPort
  path : lowercase x.path = lowercase y.path

end Spelling

theorem toLower_of_toNat_lt {c : Char} (h : c.toLower.toNat < 97) : c.toLower = c := by
  unfold Char.toLower at h ⊢
  split
  next hupper =>
    rw [dif_pos hupper] at h
    have hlow : 65 ≤ c.val.toNat := UInt32.le_iff_toNat_le.mp hupper.1
    have hhigh : c.val.toNat ≤ 90 := UInt32.le_iff_toNat_le.mp hupper.2
    have hval : (c.val + ('a'.val - 'A'.val)).toNat = c.val.toNat + 32 := by
      rw [UInt32.toNat_add]
      exact Nat.mod_eq_of_lt (by
        have : ('a'.val - 'A'.val).toNat = 32 := by decide
        omega)
    have hlt : (c.val + ('a'.val - 'A'.val)).toNat < 97 := h
    omega
  next => rfl

theorem mem_of_mem_lowercase {cs : Chars} {d : Char} (hd : d.toNat < 97) (h : d ∈ lowercase cs) :
    d ∈ cs := by
  obtain ⟨c, hc, rfl⟩ := mem_map.mp h
  rwa [toLower_of_toNat_lt hd]

theorem lowercase_append (cs ds : Chars) : lowercase (cs ++ ds) = lowercase cs ++ lowercase ds :=
  map_append

def Remote.lower (remote : Remote) : Remote :=
  ⟨remote.scheme.map lowercase, lowercase remote.authority, lowercase remote.path⟩

theorem Remote.lower_text (remote : Remote) : remote.lower.text = lowercase remote.text := by
  rcases remote with ⟨_ | scheme, authority, path⟩
  · exact (lowercase_append _ _).symm
  · simp only [Remote.text, Remote.lower, lowercase_append, Option.map_some]
    rfl

theorem infix_of_lowercase {cs : Chars} (h : "://".toList <:+: lowercase cs) : "://".toList <:+: cs := by
  obtain ⟨front, back, heq⟩ := h
  rw [append_assoc] at heq
  obtain ⟨front', rest, rfl, -, hrest⟩ := map_eq_append_iff.mp heq.symm
  obtain ⟨pat, back', rfl, hpat, -⟩ := map_eq_append_iff.mp hrest
  refine ⟨front', back', ?_⟩
  rw [append_assoc]
  suffices pat = "://".toList by rw [this]
  refine (map_id _).symm.trans ((map_congr_left fun c hc => ?_).trans hpat)
  have hpunctuation : ∀ d ∈ "://".toList, d.toNat < 97 := by simp
  exact (toLower_of_toNat_lt (hpunctuation _ (hpat ▸ mem_map_of_mem hc))).symm

/-! ### Ports -/

theorem toLower_eq_iff {c d : Char} (hd : d.toNat < 97) (hlower : d.toLower = d) :
    c.toLower = d ↔ c = d := by
  constructor
  · rintro rfl
    exact (toLower_of_toNat_lt hd).symm
  · rintro rfl
    exact hlower

theorem rtakeWhile_lowercase {d : Char} (hd : d.toNat < 97) (hlower : d.toLower = d) (cs : Chars) :
    (lowercase cs).rtakeWhile (· != d) = lowercase (cs.rtakeWhile (· != d)) := by
  have hsame : (· != d) ∘ Char.toLower = (· != d) := by
    funext c
    rw [Function.comp_apply, Bool.eq_iff_iff, bne_iff_ne, bne_iff_ne, ne_eq, ne_eq,
      toLower_eq_iff hd hlower]
  rw [List.rtakeWhile, List.rtakeWhile, lowercase, lowercase, ← map_reverse,
    takeWhile_map, hsame, map_reverse]

theorem splitPort_eq_none_iff {authority : Chars} :
    splitPort authority = none ↔ ':' ∉ authority.rtakeWhile (· != ']') := by
  unfold splitPort
  dsimp only
  split <;> simp_all

theorem splitPort_lowercase {host : Chars} (h : splitPort host = none) :
    splitPort (lowercase host) = none := by
  rw [splitPort_eq_none_iff] at h ⊢
  rw [rtakeWhile_lowercase (by decide) (by decide)]
  exact fun hmem => h (mem_of_mem_lowercase (by decide) hmem)

/-- A port is found after a host that has none. -/
theorem splitPort_append {host port : Chars} (hhost : splitPort host = none) (hport : ']' ∉ port) :
    splitPort (host ++ ':' :: port) = some (host, port) := by
  rw [splitPort_eq_none_iff] at hhost
  have hno : ∀ c ∈ ':' :: port, (c != ']') = true := by
    intro c hc
    rw [bne_iff_ne]
    rintro rfl
    rcases mem_cons.mp hc with heq | hmem
    · exact absurd heq (by decide)
    · exact hport hmem
  have htail : (host ++ ':' :: port).rtakeWhile (· != ']') =
      host.rtakeWhile (· != ']') ++ ':' :: port := by
    rw [List.rtakeWhile, List.rtakeWhile, reverse_append,
      takeWhile_append_of_pos fun c hc => hno c (mem_reverse.mp hc), reverse_append,
      reverse_reverse]
  have hfront : host.rdropWhile (· != ']') ++ host.rtakeWhile (· != ']') = host :=
    rdropWhile_append_rtakeWhile
  have hnocolon : ∀ c ∈ host.rtakeWhile (· != ']'), (c != ':') = true := by
    intro c hc
    rw [bne_iff_ne]
    rintro rfl
    exact hhost hc
  unfold splitPort
  dsimp only
  rw [htail, if_pos (by simp), takeWhile_append_of_pos hnocolon,
    dropWhile_append_of_pos hnocolon]
  have htake : (host ++ ':' :: port).take ((host ++ ':' :: port).length -
      (host.rtakeWhile (· != ']') ++ ':' :: port).length) = host.rdropWhile (· != ']') := by
    have hpre := rdropWhile_prefix (· != ']') host
    have hlen := congrArg List.length hfront
    rw [length_append] at hlen
    have hcount : (host ++ ':' :: port).length - (host.rtakeWhile (· != ']') ++ ':' :: port).length =
        (host.rdropWhile (· != ']')).length := by
      simp only [length_append, length_cons]
      omega
    rw [hcount, take_append_of_le_length hpre.length_le]
    exact (prefix_iff_eq_take.mp hpre).symm
  rw [htake]
  simp [hfront]

namespace Spelling

variable {x y : Spelling}

section

variable (hx : x.Valid)

include hx

theorem Valid.trim_text : trim x.text = x.text := by
  have hdrop : x.text.dropWhile Text.isWhitespace = x.text := by
    refine dropWhile_eq_self_iff.mpr fun hlen => ?_
    simpa using hx.printable _ (getElem_mem hlen)
  rw [trim, hdrop]
  refine rdropWhile_eq_self_iff.mpr fun hne => ?_
  simpa using hx.printable _ (getLast_mem hne)

theorem Valid.mem_authority : '/' ∉ x.authority := by
  intro hmem
  rcases mem_append.mp hmem with hmem | hmem
  · cases huser : x.userinfo with
    | none => simp [huser] at hmem
    | some userinfo => exact hx.userinfo userinfo huser (by simpa [huser] using hmem)
  rcases mem_append.mp hmem with hmem | hmem
  · exact hx.host.1 hmem
  · cases hport : x.port with
    | none => simp [hport] at hmem
    | some port => exact (hx.port port hport).1 (by simpa [hport] using hmem)

theorem Valid.parted : x.remote.lower.Parted := by
  refine ⟨?_, ?_, ?_, ?_⟩
  · intro scheme hscheme rest
    obtain ⟨scheme', hscheme', rfl⟩ := Option.map_eq_some_iff.mp hscheme
    have hcolon : ':' ∉ lowercase scheme' := fun h =>
      hx.scheme scheme' hscheme' (mem_of_mem_lowercase (by decide) h)
    exact Text.splitOnceChars_append hcolon rest
  · intro hnone hocc
    rw [Remote.lower_text] at hocc
    exact hx.bare (Option.map_eq_none_iff.mp hnone) (infix_of_lowercase hocc)
  · exact fun h => hx.mem_authority (mem_of_mem_lowercase (by decide) h)
  · show lowercase x.fullPath = [] ∨ ∃ rest, lowercase x.fullPath = '/' :: rest
    rw [fullPath, lowercase_append]
    rcases hx.path with hnil | ⟨rest, hrest⟩
    · have hgit : x.git = false := by
        by_contra hgit
        exact hx.git (by simpa using hgit) hnil
      rw [hnil, hgit]
      cases x.slashes with
      | zero => exact .inl rfl
      | succ n => exact .inr ⟨lowercase (List.replicate n '/'), rfl⟩
    · rw [hrest]
      exact .inr ⟨lowercase rest ++ lowercase _, rfl⟩

theorem Valid.canonicalRepositoryUrl_text :
    canonicalRepositoryUrl x.text = x.remote.lower.canonical.text := by
  rw [canonicalRepositoryUrl, hx.trim_text, text, ← Remote.lower_text, hx.parted.splitRemote_eq]

theorem Valid.stripUserinfo_authority : stripUserinfo (lowercase x.authority) =
      lowercase (x.host ++ (x.port.map (':' :: ·)).getD []) := by
  have hno : ∀ c ∈ lowercase (x.host ++ (x.port.map (':' :: ·)).getD []), (c != '@') = true := by
    intro c hc
    rw [bne_iff_ne]
    rintro rfl
    rcases mem_append.mp (mem_of_mem_lowercase (by decide) hc) with hmem | hmem
    · exact hx.host.2.1 hmem
    · cases hport : x.port with
      | none => simp [hport] at hmem
      | some port => exact (hx.port port hport).2.1 (by simpa [hport] using hmem)
  cases huser : x.userinfo with
  | none =>
    simp only [authority, huser, Option.map_none, Option.getD_none, nil_append]
    exact rtakeWhile_eq_self_iff.mpr hno
  | some userinfo =>
    simp only [authority, huser, Option.map_some, Option.getD_some, append_assoc,
      singleton_append]
    rw [lowercase_append]
    exact rtakeWhile_append_cons (by decide) hno

/-- Neither credentials nor a default port are left of the authority. -/
theorem Valid.canonical_authority : x.remote.lower.canonical.authority =
      lowercase x.host ++ (x.ownPort.map (':' :: ·)).getD [] := by
  show stripDefaultPort (x.scheme.map lowercase) (stripUserinfo (lowercase x.authority)) = _
  rw [hx.stripUserinfo_authority, lowercase_append]
  have hhost := splitPort_lowercase hx.host.2.2
  unfold ownPort
  cases hport : x.port with
  | none =>
    cases hscheme : x.scheme with
    | none => rfl
    | some scheme =>
      have hnil : lowercase x.host ++ lowercase ((none.map (':' :: ·)).getD []) = lowercase x.host :=
        append_nil _
      rw [hnil]
      simp [stripDefaultPort, hhost]
  | some port =>
    have hbracket : ']' ∉ lowercase port := fun h =>
      (hx.port port hport).2.2 (mem_of_mem_lowercase (by decide) h)
    have hsplit := splitPort_append hhost hbracket
    cases hscheme : x.scheme with
    | none => rfl
    | some scheme =>
      have hwhole : lowercase x.host ++ lowercase (((some port).map (':' :: ·)).getD []) =
          lowercase x.host ++ ':' :: lowercase port := rfl
      rw [hwhole]
      simp only [stripDefaultPort, Option.map_some, hsplit]
      split <;> simp

end

/-- What is left of the path depends on the `.git` suffix only where the path has one more. -/
theorem canonical_path (x : Spelling) :
    x.remote.lower.canonical.path =
      if x.git then stripTrailingSlashes (lowercase x.path)
      else stripTrailingSlashes (stripGit (stripTrailingSlashes (lowercase x.path))) := by
  have hslashes : ∀ c ∈ lowercase (List.replicate x.slashes '/'), (c == '/') = true := by
    intro c hc
    obtain ⟨d, hd, rfl⟩ := mem_map.mp hc
    rw [eq_of_mem_replicate hd]
    decide
  show stripTrailingSlashes (stripGit (stripTrailingSlashes (lowercase x.fullPath))) = _
  rw [fullPath, ← append_assoc, lowercase_append]
  have hstripped : stripTrailingSlashes (lowercase (x.path ++ if x.git then ".git".toList else []) ++
      lowercase (List.replicate x.slashes '/')) =
        stripTrailingSlashes (lowercase (x.path ++ if x.git then ".git".toList else [])) :=
    rdropWhile_append_of_forall hslashes
  rw [hstripped, lowercase_append]
  cases x.git with
  | false => simp [lowercase]
  | true =>
    have hgit : stripTrailingSlashes (lowercase x.path ++ ".git".toList) =
        lowercase x.path ++ ".git".toList := by
      have hlast : lowercase x.path ++ ".git".toList = (lowercase x.path ++ ".gi".toList) ++ ['t'] := by
        rw [append_assoc]
        rfl
      rw [hlast]
      exact rdropWhile_concat_neg _ _ _ (by decide)
    have hlower : lowercase ".git".toList = ".git".toList := by decide
    rw [if_pos rfl, if_pos rfl, hlower, hgit, stripGit, if_pos (suffix_append _ _)]
    simp

/-- Spellings of one repository have one canonical text, unless one of them has a `.git` suffix more
than the other and the path ends in `.git` without it. -/
theorem canonicalRepositoryUrl_eq_iff (hx : x.Valid) (hy : y.Valid) (h : x.Same y) :
    canonicalRepositoryUrl x.text = canonicalRepositoryUrl y.text ↔
      x.git = y.git ∨ ¬".git".toList <:+ stripTrailingSlashes (lowercase x.path) := by
  have hscheme : x.remote.lower.canonical.scheme = y.remote.lower.canonical.scheme := h.scheme
  have hauthority : x.remote.lower.canonical.authority = y.remote.lower.canonical.authority := by
    rw [hx.canonical_authority, hy.canonical_authority, h.host, h.port]
  have htexts : canonicalRepositoryUrl x.text = canonicalRepositoryUrl y.text ↔
      x.remote.lower.canonical.path = y.remote.lower.canonical.path := by
    rw [hx.canonicalRepositoryUrl_text, hy.canonicalRepositoryUrl_text]
    constructor
    · intro htext
      have hparts := congrArg splitRemote htext
      rw [hx.parted.canonical.splitRemote_eq, hy.parted.canonical.splitRemote_eq] at hparts
      rw [hparts]
    · intro hpath
      rw [Remote.text, Remote.text, hscheme, hauthority, hpath]
  have hstable := stripTrailingSlashes_stripGit_eq_iff (lowercase x.path)
  rw [htexts, canonical_path, canonical_path, ← h.path, ← hstable]
  cases x.git <;> cases y.git <;> simp [eq_comm]

end Spelling

end OraDesktop.Marketplace
