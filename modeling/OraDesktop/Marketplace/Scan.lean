import OraDesktop.Marketplace.Index

/-!
# The registry scan

The manifests of a source are looked for below its registry directory. Whether an entry is a
directory is asked of its path, so the scan enters a symbolic link to a directory, inside the
checkout or not, and it takes a link for a manifest by its name. A cycle of links ends where paths
get too long.

So the scan stays inside the checkout as long as no link leads it to anything that is named as a
manifest. Links that lead elsewhere, or nowhere, do no harm.

## Main results

* `mem_collectOraxManifests_iff` — what the scan finds where no link leads it to a manifest
* `scan_contained_iff` — when it finds just the manifests of the checkout
-/

namespace OraDesktop.Marketplace

open List

inductive FileKind where
  | directory
  | regular
  | link
  | special

/-- What `read_dir` gives for a path, where `is_dir` is true of it. The links of the path are followed;
the kinds are those of the entries themselves. -/
structure Files where
  readDir : Path → Option (List (Chars × FileKind))
  /-- Longer paths are refused. -/
  limit : Nat
  length_le : ∀ {path}, (readDir path).isSome → path.length ≤ limit
  names_nodup : ∀ path, (((readDir path).getD []).map (·.1)).Nodup
  isSome_iff : ∀ {path entry}, entry ∈ (readDir path).getD [] → entry.2 ≠ .link →
    ((readDir (path ++ [entry.1])).isSome ↔ entry.2 = .directory)

def oraxToml : Chars := "orax.toml".toList

namespace Files

section

variable (files : Files)

def collectOraxManifests (dir : Path) : List Path :=
  ((files.readDir dir).getD []).flatMap fun entry =>
    if _ : (files.readDir (dir ++ [entry.1])).isSome then collectOraxManifests (dir ++ [entry.1])
    else if entry.1 = oraxToml then [dir ++ [entry.1]] else []
termination_by files.limit - dir.length
decreasing_by
  have hlength := files.length_le ‹_›
  rw [length_append, length_singleton] at hlength ⊢
  omega

def oraxManifestPaths (root : Path) : List Path :=
  (files.collectOraxManifests root).insertionSort (· ≤ ·)

section

variable (parse : Path → Except Chars PluginManifest) (source : RegistrySource) (id : PluginId)

def findManifestPath : Option Path :=
  if source.namespace.value ≠ id.namespace then none
  else (files.oraxManifestPaths source.registryDir).find? fun path =>
    (parse path).toOption.any (entryId · source.namespace = id)

def resolveEntryDirectory : Option Path :=
  (files.findManifestPath parse source id).map dropLast

end

def Holds (dir : Path) (name : Chars) (kind : FileKind) : Prop :=
  (name, kind) ∈ (files.readDir dir).getD []

/-- A directory below another one that is reached without following a link. -/
inductive Reached : Path → Path → Prop where
  | here {dir : Path} : Reached dir dir
  | inside {dir path : Path} {name : Chars} :
      files.Holds dir name .directory → Reached (dir ++ [name]) path → Reached dir path

def RegularManifest (dir path : Path) : Prop :=
  ∃ parent, files.Reached dir parent ∧ files.Holds parent oraxToml .regular ∧
    path = parent ++ [oraxToml]

/-- A path below a directory that is named as a manifest and is no directory, where links are
followed. -/
inductive Found : Path → Path → Prop where
  | here {dir : Path} {kind : FileKind} : files.Holds dir oraxToml kind →
      ¬(files.readDir (dir ++ [oraxToml])).isSome → Found dir (dir ++ [oraxToml])
  | inside {dir path : Path} {name : Chars} {kind : FileKind} :
      files.Holds dir name kind → Found (dir ++ [name]) path → Found dir path

/-- No link leads to a manifest below it, and what is named as a manifest is a regular file unless it
is, or leads to, a directory. -/
structure Plain (dir : Path) : Prop where
  link : ∀ {parent name}, files.Reached dir parent → files.Holds parent name .link →
    ∀ path, ¬files.Found (parent ++ [name]) path
  manifest : ∀ {parent kind}, files.Reached dir parent → files.Holds parent oraxToml kind →
    ¬(files.readDir (parent ++ [oraxToml])).isSome → kind = .regular

section

variable (source : RegistrySource)

/-- The registry is a directory of the checkout, and no link to one. -/
def HasRegistry : Prop := files.Holds source.checkoutDir "registry".toList .directory

/-- The scan of a source finds just the regular manifests of its checkout. -/
def Contained : Prop :=
  ∀ path, path ∈ files.oraxManifestPaths source.registryDir ↔
    files.HasRegistry source ∧ files.RegularManifest source.registryDir path

end

end

variable {files : Files} {dir parent path : Path} {name : Chars}

/-! ### What the scan finds -/

theorem Holds.kind_unique {kind kind' : FileKind} (h : files.Holds dir name kind)
    (h' : files.Holds dir name kind') : kind = kind' :=
  congrArg Prod.snd (inj_on_of_nodup_map (files.names_nodup dir) h h' rfl)

theorem Found.isSome (h : files.Found dir path) : (files.readDir dir).isSome := by
  rw [Option.isSome_iff_ne_none]
  intro hnone
  cases h with
  | here hholds _ | inside hholds _ =>
    rw [Holds, hnone] at hholds
    cases hholds

theorem mem_collectOraxManifests_iff :
    path ∈ files.collectOraxManifests dir ↔ files.Found dir path := by
  fun_induction collectOraxManifests with
  | case1 dir ih =>
    rw [mem_flatMap]
    constructor
    · rintro ⟨⟨name, kind⟩, hholds, hpath⟩
      dsimp only at hpath
      split at hpath
      · exact .inside hholds ((ih (name, kind) ‹_›).mp hpath)
      · split at hpath
        · subst name
          rw [mem_singleton.mp hpath]
          exact .here hholds ‹_›
        · cases hpath
    · intro hfound
      cases hfound with
      | here hholds hnot =>
        refine ⟨_, hholds, ?_⟩
        rw [dif_neg hnot, if_pos rfl]
        exact mem_singleton_self _
      | inside hholds hfound =>
        refine ⟨_, hholds, ?_⟩
        rw [dif_pos hfound.isSome]
        exact (ih _ hfound.isSome).mpr hfound

theorem Reached.found (h : files.Reached dir parent) (hfound : files.Found parent path) :
    files.Found dir path := by
  induction h with
  | here => exact hfound
  | inside hholds _ ih => exact .inside hholds (ih hfound)

theorem RegularManifest.found (h : files.RegularManifest dir path) : files.Found dir path := by
  obtain ⟨parent, hreached, hregular, rfl⟩ := h
  exact hreached.found (.here hregular ((files.isSome_iff hregular nofun).not.mpr nofun))

/-- In a plain directory only what is entered without a link has manifests. -/
theorem Plain.regularManifest (h : files.Plain dir) (hfound : files.Found dir path) :
    files.RegularManifest dir path := by
  induction hfound with
  | here hholds hnot => exact ⟨_, .here, h.manifest .here hholds hnot ▸ hholds, rfl⟩
  | @inside dir path name kind hholds hfound ih =>
    have hkind : kind = .directory := by
      by_cases hlink : kind = .link
      · exact absurd hfound (h.link .here (hlink ▸ hholds) _)
      · exact (files.isSome_iff hholds hlink).mp hfound.isSome
    subst kind
    obtain ⟨parent, hreached, hmanifest⟩ := ih
      ⟨fun hreached => h.link (.inside hholds hreached),
        fun hreached => h.manifest (.inside hholds hreached)⟩
    exact ⟨parent, .inside hholds hreached, hmanifest⟩

/-! ### The path tells how it is reached -/

theorem Reached.isPrefix (h : files.Reached dir path) : dir <+: path := by
  induction h with
  | here => exact prefix_rfl
  | inside _ _ ih => exact (prefix_append _ _).trans ih

/-- Every step on the way to a directory that is reached is a directory itself. -/
theorem Reached.holds (h : files.Reached dir path) (hdir : dir <+: parent)
    (hpath : parent ++ [name] <+: path) : files.Holds parent name .directory := by
  induction h with
  | here =>
    have hlength := (hpath.trans hdir).length_le
    simp at hlength
  | @inside dir path step hholds hreached ih =>
    obtain ⟨rest, rfl⟩ := hdir
    have hstep : dir ++ [step] <+: dir ++ rest ++ [name] :=
      prefix_of_prefix_length_le hreached.isPrefix hpath (by simp)
    rw [append_assoc, prefix_append_right_inj] at hstep
    cases rest with
    | nil =>
      obtain rfl : step = name := by simpa using hstep
      rwa [append_nil]
    | cons first rest =>
      obtain rfl : step = first := by simpa using hstep
      exact ih (by simp) hpath

theorem Found.exists_eq (h : files.Found dir path) :
    ∃ parent, dir <+: parent ∧ path = parent ++ [oraxToml] := by
  induction h with
  | here => exact ⟨_, prefix_rfl, rfl⟩
  | inside _ _ ih =>
    obtain ⟨parent, hdir, rfl⟩ := ih
    exact ⟨parent, (prefix_append _ _).trans hdir, rfl⟩

/-- Where all that is found is a regular manifest, the directory is plain: a path through a link is
not one through directories too, since names are used once. -/
theorem plain_of_forall_found (h : ∀ path, files.Found dir path → files.RegularManifest dir path) :
    files.Plain dir := by
  constructor
  · intro parent name hreached hlink path hfound
    obtain ⟨other, hother, -, rfl⟩ := h path (hreached.found (.inside hlink hfound))
    obtain ⟨last, hlast, heq⟩ := hfound.exists_eq
    obtain rfl := append_cancel_right heq
    cases hlink.kind_unique (hother.holds hreached.isPrefix hlast)
  · intro parent kind hreached hholds hnot
    obtain ⟨other, -, hregular, heq⟩ := h _ (hreached.found (.here hholds hnot))
    obtain rfl := append_cancel_right heq
    exact hholds.kind_unique hregular

/-! ### Scans of a checkout -/

/-- The scan finds just the regular manifests of the checkout exactly where nothing else shows one to
it. Then an id is resolved to one of them and to a directory of the checkout. -/
theorem scan_contained_iff (source : RegistrySource) :
    (files.Contained source ↔ (files.HasRegistry source → files.Plain source.registryDir) ∧
      (¬files.HasRegistry source → ∀ path, ¬files.Found source.registryDir path)) ∧
    (files.Contained source → ∀ parse id,
      (∀ path, files.findManifestPath parse source id = some path →
        files.RegularManifest source.registryDir path) ∧
      ∀ parent, files.resolveEntryDirectory parse source id = some parent →
        files.Reached source.checkoutDir parent) := by
  have hscan : ∀ path, path ∈ files.oraxManifestPaths source.registryDir ↔
      files.Found source.registryDir path := fun path =>
    (mem_insertionSort _).trans mem_collectOraxManifests_iff
  refine ⟨⟨fun h => ⟨fun hregistry => ?_, fun hregistry path hfound => ?_⟩, fun h path => ?_⟩,
    fun h parse id => ?_⟩
  · exact plain_of_forall_found fun path hfound => ((h path).mp ((hscan path).mpr hfound)).2
  · exact hregistry ((h path).mp ((hscan path).mpr hfound)).1
  · rw [hscan]
    refine ⟨fun hfound => ?_, fun hregular => hregular.2.found⟩
    by_cases hregistry : files.HasRegistry source
    · exact ⟨hregistry, (h.1 hregistry).regularManifest hfound⟩
    · exact absurd hfound (h.2 hregistry path)
  · have hfind : ∀ path, files.findManifestPath parse source id = some path →
        files.HasRegistry source ∧ files.RegularManifest source.registryDir path := by
      intro path hpath
      rw [findManifestPath] at hpath
      split at hpath
      · cases hpath
      · exact (h path).mp (mem_of_find?_eq_some hpath)
    refine ⟨fun path hpath => (hfind path hpath).2, fun parent hparent => ?_⟩
    obtain ⟨path, hpath, rfl⟩ := Option.map_eq_some_iff.mp hparent
    obtain ⟨hregistry, parent, hreached, -, rfl⟩ := hfind path hpath
    rw [dropLast_concat]
    exact .inside hregistry hreached

/-- A registry that holds `orax.toml`, as a file or as a link, and a link to an empty directory. -/
def sample (linked : Bool) : Files where
  readDir
    | [] => some [("registry".toList, .directory)]
    | [_] => some [(oraxToml, if linked then .link else .regular), (['n'], .link)]
    | [_, name] => if name = oraxToml then none else some []
    | _ => none
  limit := 2
  length_le {path} h := by
    split at h <;> simp_all
  names_nodup path := by
    split
    · decide
    · cases linked <;> decide
    · split <;> exact nodup_nil
    · exact nodup_nil
  isSome_iff {path entry} h hlink := by
    split at h
    · cases mem_singleton.mp h
      simp
    · simp only [Option.getD_some, mem_cons, not_mem_nil, or_false] at h
      rcases h with rfl | rfl
      · cases linked
        · simp
        · exact absurd rfl hlink
      · exact absurd rfl hlink
    · split at h <;> cases h
    · cases h

def sampleSource : RegistrySource := ⟨[], [], ⟨[]⟩, [], []⟩

/-- The link to an empty directory is entered, but the scan finds only the file. -/
theorem scan_finds_file :
    (sample false).Contained sampleSource ∧ sampleSource.registryDir ++ [oraxToml] ∈
      (sample false).oraxManifestPaths sampleSource.registryDir := by
  have hregistry : (sample false).HasRegistry sampleSource := .head _
  have hreached : ∀ parent, (sample false).Reached sampleSource.registryDir parent →
      parent = sampleSource.registryDir := by
    intro parent h
    cases h with
    | here => rfl
    | inside hholds _ =>
      simp [Holds, sample, sampleSource, RegistrySource.registryDir] at hholds
  have hfile : (sample false).Holds sampleSource.registryDir oraxToml .regular := .head _
  have hplain : (sample false).Plain sampleSource.registryDir := by
    constructor
    · intro parent name hparent _ path hfound
      obtain rfl := hreached parent hparent
      have hempty : ((sample false).readDir (sampleSource.registryDir ++ [name])).getD [] = [] := by
        rcases ite_eq_or_eq (name = oraxToml) none (some []) with h | h <;>
          exact congrArg (Option.getD · []) h
      cases hfound with
      | here hholds _ | inside hholds _ =>
        rw [Holds, hempty] at hholds
        cases hholds
    · intro parent kind hparent hholds _
      obtain rfl := hreached parent hparent
      exact hholds.kind_unique hfile
  have hcontained : (sample false).Contained sampleSource :=
    (scan_contained_iff sampleSource).1.mpr ⟨fun _ => hplain, fun h => absurd hregistry h⟩
  exact ⟨hcontained, (hcontained _).mpr ⟨hregistry, _, .here, hfile, rfl⟩⟩

/-- A link of that name is taken for a manifest, wherever it leads. -/
theorem scan_finds_link :
    sampleSource.registryDir ++ [oraxToml] ∈
      (sample true).oraxManifestPaths sampleSource.registryDir ∧
    ¬(sample true).RegularManifest sampleSource.registryDir
      (sampleSource.registryDir ++ [oraxToml]) := by
  have hholds : (sample true).Holds sampleSource.registryDir oraxToml .link := .head _
  have hfound : (sample true).Found sampleSource.registryDir
      (sampleSource.registryDir ++ [oraxToml]) := .here hholds (by decide)
  refine ⟨(mem_insertionSort _).mpr (mem_collectOraxManifests_iff.mpr hfound), ?_⟩
  rintro ⟨parent, -, hregular, heq⟩
  obtain rfl := append_cancel_right heq
  cases hholds.kind_unique hregular

end Files

end OraDesktop.Marketplace
