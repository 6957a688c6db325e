import Punaro.Release.Catalog

/-!
# Revocation along a chain of catalogs

Each catalog is assembled from the one before it. A release that was listed once and is
not allowed any more is never allowed again: its sequence is below that of every release
to come, it is not listed any more, or it stays blocked as long as it is not below the
minimum safe sequence, which never decreases.
-/

namespace Punaro.Release

open Outcome

variable {E : Env} {F : TimeFormat} {previous catalog : Catalog} {entry : CatalogRelease}
variable {catalogs : List Catalog} {i : ℕ}

/-! ## Valid catalogs -/

/-- What validation says about the sequences of a catalog. -/
structure CatalogOK (catalog : Catalog) : Prop where
  current : ∃ entry ∈ catalog.releases, entry.release = catalog.currentRelease
  highest : ∀ entry ∈ catalog.releases, entry.release = catalog.currentRelease →
    ∀ other ∈ catalog.releases, other.sequence ≤ entry.sequence
  safe : ∀ entry ∈ catalog.releases, catalog.minimumSafeSequence ≤ entry.sequence
  blocks : ∀ entry ∈ catalog.releases, entry.release = catalog.currentRelease →
    ∀ block ∈ catalog.criticalBlocks, block < entry.sequence

/-- What the loop over the releases has found about those it has seen. -/
structure ScanOK (currentRelease : String) (scan : CatalogScan) : Prop where
  bounds : ∀ entry ∈ scan.seen, scan.lowest ≤ entry.sequence ∧ entry.sequence ≤ scan.highest
  found : ∀ entry ∈ scan.seen, entry.release = currentRelease → scan.current = some entry.sequence
  listed : ∀ sequence, scan.current = some sequence → ∃ entry ∈ scan.seen, entry.release = currentRelease

theorem ScanOK.next {currentRelease : String} {scan scan' : CatalogScan} (h : ScanOK currentRelease scan)
    (hentry : scan.entry currentRelease entry = .ok scan') :
    ScanOK currentRelease scan' ∧ scan'.seen = entry :: scan.seen := by
  simp only [CatalogScan.entry, ok_rules] at hentry
  obtain ⟨_, -, _, hfresh, rfl⟩ := hentry
  refine ⟨⟨fun e he => ?_, fun e he hcurrent => ?_, fun sequence hsequence => ?_⟩, rfl⟩
  · dsimp only
    rcases List.mem_cons.1 he with rfl | he
    · split_ifs <;> omega
    · obtain ⟨hlow, hhigh⟩ := h.bounds e he
      split_ifs <;> omega
  · dsimp only
    rcases List.mem_cons.1 he with rfl | he
    · rw [if_pos hcurrent]
    · rw [if_neg fun heq => (hfresh e he).1 (hcurrent.trans heq.symm)]
      exact h.found e he hcurrent
  · dsimp only at hsequence
    split at hsequence
    · exact ⟨entry, List.mem_cons_self, ‹_›⟩
    · obtain ⟨e, he, hcurrent⟩ := h.listed sequence hsequence
      exact ⟨e, List.mem_cons_of_mem _ he, hcurrent⟩

theorem foldlM_scan {currentRelease : String} {entries : List CatalogRelease} {scan scan' : CatalogScan}
    (h : ScanOK currentRelease scan) (hscan : entries.foldlM (CatalogScan.entry currentRelease) scan = .ok scan') :
    ScanOK currentRelease scan' ∧ ∀ entry, entry ∈ scan'.seen ↔ entry ∈ entries ∨ entry ∈ scan.seen := by
  induction entries generalizing scan with
  | nil =>
    cases hscan
    exact ⟨h, by simp⟩
  | cons entry entries ih =>
    simp only [List.foldlM_cons, bind_eq_ok] at hscan
    obtain ⟨next, hentry, hrest⟩ := hscan
    obtain ⟨hnext, hseen⟩ := h.next hentry
    obtain ⟨hfinal, hmem⟩ := ih hnext hrest
    refine ⟨hfinal, fun e => ?_⟩
    rw [hmem, hseen]
    simp only [List.mem_cons]
    tauto

theorem catalogOK_of_validate (h : catalog.validate F = .ok ()) : CatalogOK catalog := by
  unfold Catalog.validate at h
  simp only [ok_rules] at h
  obtain ⟨_, -, _, -, _, -, _, -, h⟩ := h
  split at h
  · cases h
  rename_i first rest hreleases
  simp only [ok_rules] at h
  obtain ⟨_, -, scan, hscan, current, hcurrent, _, ⟨hhighest, hlowest⟩, _, -, hblocks, -⟩ := h
  have hstart : ScanOK catalog.currentRelease ⟨[], first.sequence, first.sequence, none⟩ := ⟨nofun, nofun, nofun⟩
  obtain ⟨hok, hmem⟩ := foldlM_scan hstart hscan
  have hseen : ∀ entry, entry ∈ scan.seen ↔ entry ∈ catalog.releases := by simp [hmem, hreleases]
  have hfound : ∀ entry ∈ catalog.releases, entry.release = catalog.currentRelease → entry.sequence = current := by
    intro entry hentry hrelease
    have hsome := hok.found entry ((hseen entry).2 hentry) hrelease
    rw [hcurrent, Option.some.injEq] at hsome
    exact hsome.symm
  refine ⟨?_, fun entry hentry hrelease other hother => ?_, fun entry hentry => ?_,
    fun entry hentry hrelease block hblock => ?_⟩
  · obtain ⟨entry, hentry, hrelease⟩ := hok.listed current hcurrent
    exact ⟨entry, (hseen entry).1 hentry, hrelease⟩
  · rw [hfound entry hentry hrelease, hhighest]
    exact (hok.bounds other ((hseen other).2 hother)).2
  · exact hlowest.trans (hok.bounds entry ((hseen entry).2 hentry)).1
  · rw [hfound entry hentry hrelease]
    exact (hblocks block hblock).2

theorem Catalog.allows_eq_true {release : String} {sequence : Int} {digest : String} :
    catalog.allows release sequence digest = true ↔ catalog.minimumSafeSequence ≤ sequence ∧
      sequence ∉ catalog.criticalBlocks ∧ ∃ entry ∈ catalog.releases,
        entry.release = release ∧ entry.sequence = sequence ∧ entry.manifestSHA256 = digest := by
  unfold Catalog.allows
  split_ifs with hsafe hblocked
  · simp only [false_iff, not_and]
    intro hle
    omega
  · simp [hblocked]
  · simp only [List.any_eq_true, Bool.and_eq_true, decide_eq_true_eq, and_assoc]
    exact ⟨fun h => ⟨by omega, hblocked, h⟩, fun h => h.2.2⟩

/-- The current release of a valid catalog is allowed. -/
theorem CatalogOK.current_allowed (h : CatalogOK catalog) (hentry : entry ∈ catalog.releases)
    (hrelease : entry.release = catalog.currentRelease) :
    catalog.allows entry.release entry.sequence entry.manifestSHA256 = true :=
  Catalog.allows_eq_true.2 ⟨h.safe entry hentry, fun hblocked => lt_irrefl _ (h.blocks entry hentry hrelease _ hblocked),
    entry, hentry, rfl, rfl, rfl⟩

/-! ## One step -/

/-- The catalog is produced by `Assemble`, with the given previous catalog. -/
def Assembled (E : Env) (previous : Option Catalog) (catalog : Catalog) : Prop :=
  ∃ request written manifest, request.previousCatalog = previous ∧
    assemble E request written = .ok (manifest, catalog)

/-- How a catalog goes on from the previous one. -/
structure Advances (previous catalog : Catalog) : Prop where
  ok : CatalogOK previous
  sequence : previous.sequence < catalog.sequence
  safe : previous.minimumSafeSequence ≤ catalog.minimumSafeSequence
  current : ∀ entry ∈ catalog.releases, entry.release = catalog.currentRelease →
    ∀ earlier ∈ previous.releases, earlier.sequence < entry.sequence
  retained : ∀ entry ∈ catalog.releases, entry.release = catalog.currentRelease ∨ entry ∈ previous.releases
  blocks : ∀ block ∈ previous.criticalBlocks, catalog.minimumSafeSequence ≤ block → block ∈ catalog.criticalBlocks

theorem assembled_ok {before : Option Catalog} (h : Assembled E before catalog) : CatalogOK catalog := by
  obtain ⟨request, written, manifest, -, h⟩ := h
  simp only [assemble, ok_rules, mapError_eq_ok, Prod.mk.injEq] at h
  obtain ⟨_, -, _, -, _, -, _, -, _, -, _, hvalid, _, -, -, rfl⟩ := h
  exact catalogOK_of_validate hvalid

theorem assembled_advances (h : Assembled E (some previous) catalog) : Advances previous catalog := by
  obtain ⟨request, written, manifest, hprevious, h⟩ := h
  simp only [assemble, ok_rules, mapError_eq_ok, Prod.mk.injEq] at h
  obtain ⟨_, -, _, -, _, -, _, -, ⟨blocks, releases⟩, hentries, _, -, _, -, -, rfl⟩ := h
  rw [hprevious] at hentries
  simp only [replacementCatalogEntries, ok_rules, Prod.mk.injEq] at hentries
  obtain ⟨_, -, _, ⟨hvalid, hsequence, hsafe⟩, _, -, _, rfl, _, -, _, hadvance, _, -, rfl, rfl⟩ := hentries
  dsimp only at hadvance
  refine ⟨catalogOK_of_validate hvalid, hsequence, hsafe, fun entry hentry hrelease earlier hearlier => ?_,
    fun entry hentry => ?_, fun block hblock hle => ?_⟩
  · simp only [AssembleRequest.catalog, List.mem_insertionSort, List.mem_append, List.mem_filter, List.mem_singleton]
      at hentry
    rcases hentry with ⟨hmem, -⟩ | rfl
    · exact absurd hrelease (hadvance entry hmem).2
    · exact (hadvance earlier hearlier).1
  · simp only [AssembleRequest.catalog, List.mem_insertionSort, List.mem_append, List.mem_filter, List.mem_singleton]
      at hentry
    rcases hentry with ⟨hmem, -⟩ | rfl
    · exact .inr hmem
    · exact .inl rfl
  · simp only [AssembleRequest.catalog, List.mem_insertionSort, List.mem_append, List.mem_filter, List.mem_dedup,
      decide_eq_true_eq]
    by_cases hrequested : block ∈ request.criticalBlocks
    · exact .inl ⟨hrequested, hle⟩
    · exact .inr ⟨hblock, hle, hrequested⟩

/-! ## Chains -/

/-- The sequence of a release that was listed once is not above the current one. -/
def Behind (entry : CatalogRelease) (catalog : Catalog) : Prop :=
  ∃ current ∈ catalog.releases, current.release = catalog.currentRelease ∧ entry.sequence ≤ current.sequence

theorem CatalogOK.behind (h : CatalogOK catalog) (hentry : entry ∈ catalog.releases) : Behind entry catalog := by
  obtain ⟨current, hcurrent, hrelease⟩ := h.current
  exact ⟨current, hcurrent, hrelease, h.highest current hcurrent hrelease entry hentry⟩

theorem Advances.behind (h : Advances previous catalog) (hok : CatalogOK catalog) (hbehind : Behind entry previous) :
    Behind entry catalog := by
  obtain ⟨earlier, hearlier, -, hle⟩ := hbehind
  obtain ⟨current, hcurrent, hrelease⟩ := hok.current
  exact ⟨current, hcurrent, hrelease, hle.trans (h.current current hcurrent hrelease earlier hearlier).le⟩

/-- **One step** of the chain never brings a revoked release back. -/
theorem Advances.revoked (h : Advances previous catalog) (hbehind : Behind entry previous)
    (hrevoked : previous.allows entry.release entry.sequence entry.manifestSHA256 = false) :
    catalog.allows entry.release entry.sequence entry.manifestSHA256 = false := by
  rw [← Bool.not_eq_true, Catalog.allows_eq_true] at hrevoked ⊢
  rintro ⟨hsafe, hblocked, found, hfound, hname, hsequence, hdigest⟩
  obtain ⟨current, hcurrent, -, hle⟩ := hbehind
  rcases h.retained found hfound with hnew | hold
  · -- the new release comes after everything that was listed
    have hlt := h.current found hfound hnew current hcurrent
    omega
  · exact hrevoked ⟨h.safe.trans hsafe, fun hblock => hblocked (h.blocks _ hblock hsafe),
      found, hold, hname, hsequence, hdigest⟩

/-- What holds between an earlier and a later catalog of a chain. -/
structure Later (earlier later : Catalog) : Prop where
  ok : CatalogOK later
  sequence : earlier.sequence ≤ later.sequence
  safe : earlier.minimumSafeSequence ≤ later.minimumSafeSequence
  behind : ∀ entry, Behind entry earlier → Behind entry later
  revoked : ∀ entry, Behind entry earlier →
    earlier.allows entry.release entry.sequence entry.manifestSHA256 = false →
    later.allows entry.release entry.sequence entry.manifestSHA256 = false

theorem Later.refl (h : CatalogOK catalog) : Later catalog catalog :=
  ⟨h, le_rfl, le_rfl, fun _ => id, fun _ _ => id⟩

theorem Later.step {earlier : Catalog} (h : Later earlier previous) (hok : CatalogOK catalog)
    (hstep : Advances previous catalog) : Later earlier catalog where
  ok := hok
  sequence := h.sequence.trans hstep.sequence.le
  safe := h.safe.trans hstep.safe
  behind entry hentry := hstep.behind hok (h.behind entry hentry)
  revoked entry hentry hrevoked := hstep.revoked (h.behind entry hentry) (h.revoked entry hentry hrevoked)

/-- A chain of catalogs, each produced by `Assemble` with the preceding one as the previous catalog. -/
structure CatalogChain (E : Env) (catalogs : List Catalog) : Prop where
  first : ∀ catalog ∈ catalogs.head?, ∃ before, Assembled E before catalog
  next : catalogs.IsChain fun previous catalog => Assembled E (some previous) catalog

theorem CatalogChain.step (h : CatalogChain E catalogs) (hprevious : catalogs[i]? = some previous)
    (hcatalog : catalogs[i + 1]? = some catalog) :
    Assembled E (some previous) catalog := by
  obtain ⟨hi, rfl⟩ := List.getElem?_eq_some_iff.1 hprevious
  obtain ⟨hi', rfl⟩ := List.getElem?_eq_some_iff.1 hcatalog
  exact List.isChain_iff_getElem.1 h.next i hi'

theorem CatalogChain.ok (h : CatalogChain E catalogs) (hcatalog : catalogs[i]? = some catalog) : CatalogOK catalog := by
  cases i with
  | zero =>
    rw [← List.head?_eq_getElem?] at hcatalog
    obtain ⟨before, hassembled⟩ := h.first catalog hcatalog
    exact assembled_ok hassembled
  | succ i =>
    obtain ⟨hi, -⟩ := List.getElem?_eq_some_iff.1 hcatalog
    exact assembled_ok (h.step (List.getElem?_eq_getElem (Nat.lt_of_succ_lt hi)) hcatalog)

/-- **A whole chain**, from any of its catalogs to any later one. -/
theorem CatalogChain.later (h : CatalogChain E catalogs) {j : ℕ} (hij : i ≤ j) {earlier later : Catalog}
    (hearlier : catalogs[i]? = some earlier) (hlater : catalogs[j]? = some later) :
    Later earlier later := by
  induction j, hij using Nat.le_induction generalizing later with
  | base =>
    rw [hearlier, Option.some.injEq] at hlater
    exact hlater ▸ .refl (h.ok hearlier)
  | succ j _ ih =>
    obtain ⟨hj, -⟩ := List.getElem?_eq_some_iff.1 hlater
    have hbefore := List.getElem?_eq_getElem (Nat.lt_of_succ_lt hj)
    exact (ih hbefore).step (h.ok hlater) (assembled_advances (h.step hbefore hlater))

/-- What a chain of catalogs promises. -/
structure RevocationPermanent (catalogs : List Catalog) : Prop where
  /-- A release that was listed and is not allowed any more is not allowed later. -/
  revoked : ∀ {i j k : ℕ} {a b c : Catalog}, i ≤ j → j ≤ k → catalogs[i]? = some a → catalogs[j]? = some b →
    catalogs[k]? = some c → ∀ {release sequence digest}, (∃ entry ∈ a.releases, entry.release = release ∧
      entry.sequence = sequence ∧ entry.manifestSHA256 = digest) →
    b.allows release sequence digest = false → c.allows release sequence digest = false
  /-- Every catalog lists and allows its current release. -/
  current : ∀ c ∈ catalogs, (∃ entry ∈ c.releases, entry.release = c.currentRelease) ∧
    ∀ entry ∈ c.releases, entry.release = c.currentRelease →
      c.allows entry.release entry.sequence entry.manifestSHA256 = true
  /-- No sequence goes back. -/
  monotone : ∀ {i j : ℕ} {a b : Catalog}, i ≤ j → catalogs[i]? = some a → catalogs[j]? = some b →
    a.sequence ≤ b.sequence ∧ a.minimumSafeSequence ≤ b.minimumSafeSequence ∧
      ∀ entry ∈ a.releases, entry.release = a.currentRelease → ∀ entry' ∈ b.releases,
        entry'.release = b.currentRelease → entry.sequence ≤ entry'.sequence

/-- **Revocation is permanent** along every chain of catalogs. -/
theorem revocation_permanent {catalogs : List Catalog} (h : CatalogChain E catalogs) :
    RevocationPermanent catalogs where
  revoked := by
    rintro i j k a b c hij hjk ha hb hc _ _ _ ⟨entry, hentry, rfl, rfl, rfl⟩ hrevoked
    have hbehind := (h.later hij ha hb).behind entry ((h.ok ha).behind hentry)
    exact (h.later hjk hb hc).revoked entry hbehind hrevoked
  current := by
    intro c hc
    obtain ⟨i, hi, rfl⟩ := List.getElem_of_mem hc
    have hok := h.ok (List.getElem?_eq_getElem hi)
    exact ⟨hok.current, fun entry hentry hrelease => hok.current_allowed hentry hrelease⟩
  monotone := by
    intro i j a b hij ha hb
    have hlater := h.later hij ha hb
    refine ⟨hlater.sequence, hlater.safe, fun entry hentry _ entry' hentry' hrelease' => ?_⟩
    obtain ⟨current, hcurrent, -, hle⟩ := hlater.behind entry ((h.ok ha).behind hentry)
    exact hle.trans (hlater.ok.highest entry' hentry' hrelease' current hcurrent)

/-- How the listings of a chain of catalogs go on. -/
structure AppendOnly (catalogs : List Catalog) : Prop where
  /-- A later catalog lists releases as the earlier one does, or newer than all of the earlier one's. -/
  listed : ∀ {i j : ℕ} {a b : Catalog}, i ≤ j → catalogs[i]? = some a → catalogs[j]? = some b →
    ∀ entry ∈ b.releases, entry ∈ a.releases ∨ ∀ earlier ∈ a.releases, earlier.sequence < entry.sequence
  /-- A release that was dropped is not listed again. -/
  dropped : ∀ {i j k : ℕ} {a b c : Catalog}, i ≤ j → j ≤ k → catalogs[i]? = some a → catalogs[j]? = some b →
    catalogs[k]? = some c → ∀ entry ∈ a.releases, entry ∉ b.releases → entry ∉ c.releases

theorem CatalogChain.listed (h : CatalogChain E catalogs) {j : ℕ} (hij : i ≤ j) {a b : Catalog}
    (ha : catalogs[i]? = some a) (hb : catalogs[j]? = some b) (hentry : entry ∈ b.releases) :
    entry ∈ a.releases ∨ ∀ earlier ∈ a.releases, earlier.sequence < entry.sequence := by
  induction j, hij using Nat.le_induction generalizing b with
  | base =>
    rw [ha, Option.some.injEq] at hb
    exact .inl (hb ▸ hentry)
  | succ j hij ih =>
    obtain ⟨hj, -⟩ := List.getElem?_eq_some_iff.1 hb
    have hbefore := List.getElem?_eq_getElem (Nat.lt_of_succ_lt hj)
    have hstep := assembled_advances (h.step hbefore hb)
    rcases hstep.retained entry hentry with hnew | hold
    · refine .inr fun earlier hearlier => ?_
      -- the catalog before still has a release that is not below the earlier one
      obtain ⟨current, hcurrent, -, hle⟩ := (h.later hij ha hbefore).behind earlier ((h.ok ha).behind hearlier)
      exact hle.trans_lt (hstep.current entry hentry hnew current hcurrent)
    · exact ih hbefore hold

/-- **Listings only lose old releases and gain newer ones** along every chain of catalogs. -/
theorem listings_appendOnly {catalogs : List Catalog} (h : CatalogChain E catalogs) : AppendOnly catalogs where
  listed hij ha hb _ hentry := h.listed hij ha hb hentry
  dropped := by
    intro i j k a b c hij hjk ha hb hc entry hentry hdropped hlisted
    obtain ⟨current, hcurrent, -, hle⟩ := (h.later hij ha hb).behind entry ((h.ok ha).behind hentry)
    rcases h.listed hjk hb hc hlisted with hmem | hnewer
    · exact hdropped hmem
    · exact absurd (hnewer current hcurrent) (not_lt.2 hle)

/-! ## A blocked release -/

def sampleDigest : String := String.ofList (List.replicate 64 '0')

/-- Two instants, and one digest for everything. -/
def sampleEnv : Env where
  time := ⟨fun text => if text = "p" then some (0, true) else if text = "e" then some (1, true) else none,
    fun instant => if instant = 0 then "p" else "e"⟩
  sha256 _ := sampleDigest
  digest _ := sampleDigest

def sampleRequest (release : String) (sequence : Int) (blocks : List Int) (before : Option Catalog) :
    AssembleRequest where
  directory := [⟨"punaro-linux-amd64", false, some [0]⟩]
  release := release
  sequence := sequence
  publishedAt := 0
  expiresAt := 1
  minimumSafeSequence := 0
  catalogSequence := sequence
  image := ""
  composeSHA256 := sampleDigest
  migrationManifestSHA256 := sampleDigest
  database := ⟨1, 1, 1, 1⟩
  postgreSQLMajor := 18
  gatewayProtocol := ⟨1, 1⟩
  clientProtocol := ⟨1, 1⟩
  minimumRecoveryProtocol := 1
  minimumBootstrapRelease := "v1.0.0"
  supportedFrom := []
  steppingStones := []
  criticalBlocks := blocks
  previousCatalog := before

/-- The catalog of a request with no earlier releases to keep. -/
def sampleCatalog (release : String) (sequence : Int) (blocks : List Int) : Catalog :=
  ⟨1, sequence, "p", "e", release, 1, [⟨release, sequence, release ++ "/punaro-release.json", 700, sampleDigest⟩], blocks⟩

/-- The second release blocks the first. -/
theorem samples_assembled :
    (assemble sampleEnv (sampleRequest "v1.0.0" 1 [] none) true).toOption.map Prod.snd =
      some (sampleCatalog "v1.0.0" 1 []) ∧
    (assemble sampleEnv (sampleRequest "v1.0.1" 2 [1] (some (sampleCatalog "v1.0.0" 1 []))) true).toOption.map Prod.snd =
      some (sampleCatalog "v1.0.1" 2 [1]) := by
  decide +kernel

theorem assembled_of_toOption {request : AssembleRequest}
    (h : (assemble sampleEnv request true).toOption.map Prod.snd = some catalog) :
    Assembled sampleEnv request.previousCatalog catalog := by
  cases hassemble : assemble sampleEnv request true with
  | error e =>
    rw [hassemble] at h
    cases h
  | ok out =>
    rw [hassemble] at h
    exact ⟨request, true, out.1, rfl, by rw [hassemble, ← Option.some.inj h]⟩

theorem revocation_permanent_blocked :
    ((sampleCatalog "v1.0.0" 1 []).allows "v1.0.0" 1 sampleDigest = true ∧
      (sampleCatalog "v1.0.1" 2 [1]).allows "v1.0.0" 1 sampleDigest = false) ∧
    RevocationPermanent [sampleCatalog "v1.0.0" 1 [], sampleCatalog "v1.0.1" 2 [1]] := by
  refine ⟨by decide +kernel, revocation_permanent (E := sampleEnv) ⟨fun catalog hcatalog => ?_,
    .cons_cons (assembled_of_toOption samples_assembled.2) (.singleton _)⟩⟩
  obtain rfl := Option.mem_some_iff.1 hcatalog
  exact ⟨_, assembled_of_toOption samples_assembled.1⟩

theorem listings_appendOnly_samples :
    AppendOnly [sampleCatalog "v1.0.0" 1 [], sampleCatalog "v1.0.1" 2 [1]] := by
  refine listings_appendOnly (E := sampleEnv) ⟨fun catalog hcatalog => ?_,
    .cons_cons (assembled_of_toOption samples_assembled.2) (.singleton _)⟩
  obtain rfl := Option.mem_some_iff.1 hcatalog
  exact ⟨_, assembled_of_toOption samples_assembled.1⟩

end Punaro.Release
