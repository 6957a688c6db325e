import Punaro.Proof.Collisions
import Punaro.Proof.UserText

/-!
# The user's text over runs

A live markdown file keeps the region of the user over any sequence of `ApplyLive` calls,
each of them complete, failing or stopped, as long as none of them ends while the file is
missing: between its removal and the rename of the new one there is no copy that the next
call would look at.
-/

namespace Punaro.Fleet

open Prog

variable {w w' w₀ : World} {o : Fault} {c : Call} {rel : Rel} {live : Path} {user body : Bytes}
  {published addendums : Table Rel Bytes} {applied : Applied} {request : ApplyLiveRequest} {sha256 : Bytes → String}

/-! ## What is written -/

theorem free_getD {files : Table Rel Bytes} (h : files.All fun _ body => Free body) : Free ((files.find? rel).getD []) := by
  cases hfind : files.find? rel with
  | none => exact .nil
  | some body => exact h rel body hfind

theorem free_resolveAddendum (h : addendums.All fun _ body => Free body) : Free (resolveAddendum addendums rel) := by
  unfold resolveAddendum
  split
  · exact h _ _ ‹_›
  · split
    · exact free_getD h
    · exact free_getD h
    · split
      · exact h _ _ ‹_›
      · exact free_getD h
    · exact .nil
  · exact .nil

theorem free_published (h : published.All fun rel body => rehydrateRel rel → Free body) (hrel : rehydrateRel rel) :
    Free ((published.find? rel).getD []) := by
  cases hfind : published.find? rel with
  | none => exact .nil
  | some body => exact h rel body hfind hrel

/-- The text of AGENTS.md that CLAUDE.md is made of. -/
theorem free_agents (h : published.All fun rel body => rehydrateRel rel → Free body) (hrel : rehydrateRel rel) :
    Free (if (published.find? (rel.dropLast ++ ["AGENTS.md"])).getD [] = [] then (published.find? rel).getD []
      else (published.find? (rel.dropLast ++ ["AGENTS.md"])).getD []) := by
  split
  · exact free_published h hrel
  · exact free_published h (by simp [rehydrateRel]; decide)

/-- Rewriting a markdown file keeps its region. -/
theorem region_nextBody (hpublished : published.All fun rel body => rehydrateRel rel → Free body)
    (haddendums : addendums.All fun _ body => Free body) (hrel : rehydrateRel rel) (h : region body = some user) :
    region (nextBody published addendums rel body) = some user := by
  unfold nextBody composeDest
  rw [if_neg (by simp [hrel])]
  split
  · exact region_composeClaudeFile (free_agents hpublished hrel) (free_resolveAddendum haddendums)
      (free_resolveAddendum haddendums) h
  · exact region_rehydrate (free_published hpublished hrel) (free_resolveAddendum haddendums) h

/-! ## One call -/

/-- The file is there, with the region. -/
def Holding (live : Path) (user : Bytes) (d : Disk) : Prop :=
  ∃ body, d live = some (.file body) ∧ region body = some user

/-- The file is there with the region, or it is missing. -/
def Held (live : Path) (user : Bytes) (d : Disk) : Prop := Holding live user d ∨ d live = none

/-- Reading the live file does not fail. -/
def readsLive (live : Path) (o : Fault) (_ : World) : Call → Prop
  | .readRegularFile path => path = live → o.failure = none
  | _ => True

/-- A markdown file. -/
def Markdown (live : Path) : Prop := hasSuffix (live.getLast?.getD "") ".md"

instance : Decidable (Markdown live) := inferInstanceAs (Decidable (_ = true))

theorem Holding.replacing (h : Holding live user w.disk) (hread : ReadAs (readsLive live) w live body)
    (hnext : ∀ body, region body = some user → region (nextBody published addendums rel body) = some user) {node : Option Node}
    (hnode : Replacing (w.disk live) (nextBody published addendums rel body) node) :
    node = none ∨ ∃ body, node = some (.file body) ∧ region body = some user := by
  obtain ⟨old, hold, hregion⟩ := h
  have hbody : body = old := by
    rcases hread with hread | ⟨-, o, ho, hfailure⟩
    · rw [hread, hold, contents]
    · exact absurd (ho rfl) hfailure
  subst hbody
  rcases hnode with rfl | rfl | rfl
  · exact .inr ⟨body, hold, hregion⟩
  · exact .inl rfl
  · exact .inr ⟨_, rfl, hnext body hregion⟩

theorem Markdown.markerApart (h : Markdown live) : MarkerApart rel live := by
  intro dir hdir
  have hne : live ≠ [] := by
    rintro rfl
    exact absurd h (by decide)
  refine ⟨?_, ?_, skillDirForRel_not_prefix hne hdir⟩
  · rintro rfl
    simp [Markdown, tmpOf, managedDirMarker] at h
    exact absurd h (by decide)
  · rintro rfl
    simp [Markdown, managedDirMarker] at h
    exact absurd h (by decide)

/-- The condition on a request: no other file is written at the path of the live file, and no addendum opens a region
of the user. -/
structure Clear (live : Path) (request : ApplyLiveRequest) (w : World) : Prop where
  apart : ∀ dest ∈ request.dests, dest.2 ≠ live → Apart dest.1 dest.2 live
  addendums : ∀ w₁ addendums, w.perform (.loadAddendums request.addendums) = .ok (w₁, addendums) →
    addendums.All fun _ body => Free body

/-- The turn of a destination. -/
theorem applyDest_holding (hmd : Markdown live) (hclear : Clear live request w₀)
    (hpublished : rel ∈ request.published.rows.map Prod.fst) (hdest : Dest rel)
    (hnext : rehydrateRel rel → ∀ body, region body = some user →
      region (nextBody published addendums rel body) = some user)
    (h : Holding live user w.disk) :
    (applyDest request.home (projectPresent request.found) published addendums rel applied).Ensures World.answer
      (readsLive live) (fun w' => Held live user w'.disk)
      (fun r w' => Held live user w'.disk ∧ ∀ applied', r = .ok applied' → Holding live user w'.disk) w := by
  cases hlive' : liveDestPath request.home (projectPresent request.found) rel with
  | none =>
    rw [applyDest_none hlive']
    exact ⟨.inl h, fun _ _ => h⟩
  | some live' =>
    by_cases heq : live' = live
    · subst heq
      have hrel : rehydrateRel rel := by
        have hlast := hdest.getLast? hlive'
        unfold Markdown at hmd
        rwa [hlast] at hmd
      have hturn : ∀ w' : World, Turn (readsLive live') published addendums rel live' w w' →
          Held live' user w'.disk := by
        rintro w' ⟨existing, hread, hnode⟩
        exact (h.replacing hread (hnext hrel) hnode).symm
      refine ((applyDest_ensures hlive' hmd.markerApart).weaken hturn).mono ?_
      rintro r w' ⟨hw', hresult⟩
      refine ⟨hturn w' hw', fun applied' hr => ?_⟩
      rcases hresult applied' hr with ⟨-, rfl⟩ | ⟨next, -, hwritten⟩
      · exact h
      · exact (hturn w' hw').resolve_right (by rw [hwritten.file]; exact nofun)
    · have hapart := hclear.apart (rel, live') (mem_destsOf.2 ⟨hpublished, hlive'⟩) heq
      have hsame : ∀ w' : World, (∀ path, path = live → w'.disk path = w.disk path) → Holding live user w'.disk := by
        intro w' hsame
        unfold Holding
        rwa [hsame live rfl]
      have hpath : ∀ path, path = live → Apart rel live' path := fun path hpath => hpath ▸ hapart
      exact ((applyDest_apart hlive' hpath).weaken fun w' hw' => .inl (hsame w' hw')).mono
        fun r w' hw' => ⟨.inl (hsame w' hw'), fun _ _ => hsame w' hw'⟩

theorem applyDests_holding (hmd : Markdown live) (hclear : Clear live request w₀) (rels : List Rel)
    (hrels : ∀ rel ∈ rels, rel ∈ request.published.rows.map Prod.fst ∧ Dest rel)
    (hnext : ∀ rel, rehydrateRel rel → ∀ body, region body = some user →
      region (nextBody published addendums rel body) = some user)
    (h : Holding live user w.disk) :
    (applyDests request.home (projectPresent request.found) published addendums rels applied).Ensures World.answer
      (readsLive live) (fun w' => Held live user w'.disk) (fun _ w' => Held live user w'.disk) w := by
  induction rels generalizing applied w with
  | nil => exact .inl h
  | cons rel rels ih =>
    obtain ⟨hpublished, hdest⟩ := hrels rel List.mem_cons_self
    unfold applyDests
    rw [ensures_bind, ensures_attempt]
    refine (applyDest_holding hmd hclear hpublished hdest (hnext rel) h).mono ?_
    rintro (e | applied') w₁ ⟨hheld, hholding⟩
    · exact hheld
    · exact ih (fun rel' hrel' => hrels rel' (List.mem_cons_of_mem _ hrel')) (hholding _ rfl)

/-- What is removed after the loop may be the file; nothing else happens to it. -/
theorem spares_held {dest : Rel × Path} {staged : Table Rel Bytes} : Spares (Held live user) staged dest.1 dest.2 := by
  rintro d - target - o w hheld
  rcases pruneCall_disk (w := w) (o := o) target live with h | h
  · unfold Held Holding
    rwa [h]
  · exact .inr h

/-- **One call**: at any moment the file has the region, or it is missing. -/
theorem applyLive_held (hmd : Markdown live) (hclear : Clear live request w) (h : Holding live user w.disk) :
    (applyLive sha256 request).Ensures World.answer (readsLive live) (fun w' => Held live user w'.disk)
      (fun _ w' => Held live user w'.disk) w := by
  refine applyLive_retains (I := fun w' => Held live user w'.disk) (.inl h) (fun _ _ => mem_destApplyOrder.1)
    (fun hvalid addendums w₁ hload => ?_)
    fun h hstaged => settle_ensures h hstaged (fun _ _ => spares_held) fun _ _ _ => spares_held
  refine applyDests_holding hmd hclear _ ?_ ?_ h
  · intro rel hrel
    obtain ⟨body, hbody⟩ := mem_destApplyOrder.1 hrel
    exact ⟨List.mem_map.2 ⟨_, Table.find?_eq_some_iff_mem.1 hbody, rfl⟩, (published_dest hvalid rel body hbody).1⟩
  · intro rel hrel body hregion
    exact region_nextBody (published_free hvalid) (hclear.addendums _ _ hload) hrel hregion

/-! ## Whole runs -/

/-- The condition on a run: the request is clear, reading the live file does not fail, and the run does not end,
however it ends, while the file is missing. -/
def Careful (sha256 : Bytes → String) (live : Path) (request : ApplyLiveRequest) (os : List Fault) (w : World) : Prop :=
  Clear live request w ∧ (applyLive sha256 request).Admits World.answer (readsLive live) os w ∧
    ((applyLive sha256 request).play World.answer os w).1.disk live ≠ none

theorem clear_of_no_addendums (hapart : ∀ dest ∈ request.dests, dest.2 ≠ live → Apart dest.1 dest.2 live)
    (h : (w.addendums request.addendums).isEmpty) : Clear live request w := by
  refine ⟨hapart, fun w₁ addendums hload => ?_⟩
  rw [List.isEmpty_iff] at h
  simp only [World.perform, h, ite_self] at hload
  cases hload
  exact .empty

instance (o : Fault) (w : World) (c : Call) : Decidable (readsLive live o w c) := by
  unfold readsLive
  induction c using Call.casesOn <;> infer_instance

/-- AGENTS.md with a note of the user. -/
def withNote : World :=
  emptyWorld.setDisk ["h", "AGENTS.md"] (some (.file (composeManaged (ascii "one") [] (ascii "mine"))))

/-- Two calls, of which the first is stopped before it has removed the old file. -/
def stoppedEarly : List (ApplyLiveRequest × List Fault) :=
  [(agentsRequest "two", steady.take 12), (agentsRequest "two", steady)]

/-- The first call is stopped between the removal of the old file and the rename of the new one. -/
def stoppedBetween : List (ApplyLiveRequest × List Fault) :=
  [(agentsRequest "two", steady.take 13), (agentsRequest "two", steady)]

end Punaro.Fleet
