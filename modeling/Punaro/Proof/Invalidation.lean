import Punaro.Lib.Protocol
import Punaro.Proof.Sessions

/-!
# Invalidation is immediate

A lookup id is revoked in the store, and then `Invalidate` evicts its entries. An
`Authenticate` that the store has answered before may still be about to file that
answer. If none is when `Invalidate` runs, the id is gone for good.
-/

namespace Punaro.Postgres

open Prog

variable {E : Env} {lookupID : String} {ι : Type} [DecidableEq ι] {F : Bytes → CachedDevice → Prop}

/-! ## The entries are filed under their credentials -/

/-- A device is filed under the key of a credential with its lookup id. -/
def FiledUnder (E : Env) (key : Bytes) (auth : AuthenticatedDevice) : Prop :=
  ∃ text secret, key = cacheKey E text ∧ parseDeviceCredential E text = some (auth.lookupID, secret)

/-- What callers keep to: they file a device under a credential with its lookup id. -/
def filing (E : Env) : Discipline World Call Unit Move where
  Inv w := w.cache.entries.All fun key entry => FiledUnder E key entry.auth
  Rely _ _ := True
  Guar _ _ := True
  Pre c _ := ∀ key now auth, c = .insert key now auth → FiledUnder E key auth
  Allows _ _ _ := True
  Moves _ _ := True

theorem authenticateDevice_eq_ok {store : DeviceAuthStore} (h : authenticateDevice E store text = .ok auth) :
    ∃ secret rows row, parseDeviceCredential E text = some (auth.lookupID, secret) ∧ store = some rows ∧
      rows.find? auth.lookupID = some row ∧ row.active = true := by
  unfold authenticateDevice at h
  cases hparse : parseDeviceCredential E text with
  | none =>
    rw [hparse] at h
    cases h
  | some parsed =>
    obtain ⟨lookupID, secret⟩ := parsed
    rw [hparse] at h
    dsimp only at h
    cases hrow : store.bind (·.find? lookupID) with
    | none =>
      rw [hrow] at h
      cases h
    | some row =>
      rw [hrow] at h
      dsimp only at h
      split at h
      · cases h
      · rename_i hactive
        obtain rfl := Except.ok.inj h
        obtain ⟨rows, rfl, hfind⟩ := Option.bind_eq_some_iff.1 hrow
        simp only [Bool.or_eq_true, Bool.not_eq_true', not_or, Bool.not_eq_false] at hactive
        exact ⟨secret, rows, row, rfl, rfl, hfind, hactive.1⟩

/-- A call other than an insert keeps every property of the entries. -/
theorem all_answer (h : w.cache.entries.All F)
    (hnew : ∀ key now auth, c = .insert key now auth → F key ⟨auth, now + w.cache.ttl⟩) :
    (World.answer E () w c).1.cache.entries.All F := by
  cases c with
  | lookup => exact DeviceAuthCache.all_lookup h
  | insert key now auth => exact DeviceAuthCache.all_insert h (hnew key now auth rfl)
  | invalidate lookupID => exact DeviceAuthCache.all_invalidate h
  | _ => exact h

theorem filing_step {α : Type} {f : c.Result → Act α} {Q : α → World → Prop}
    (hpre : ∀ key now auth, c = .insert key now auth → FiledUnder E key auth)
    (hf : ∀ w', (f (World.answer E () w' c).2).Safe (World.answer E) (filing E) Q (World.answer E () w' c).1) :
    (c.made >>= f).Safe (World.answer E) (filing E) Q w :=
  fun w' _ hinv => ⟨hpre, fun _ _ => ⟨trivial, all_answer hinv fun key now auth hc => hpre key now auth hc, hf w'⟩⟩

theorem authenticate_filing : (authenticate E text).Safe (World.answer E) (filing E) (fun _ _ => True) w := by
  refine filing_step nofun fun w₁ => ?_
  refine filing_step nofun fun w₂ => ?_
  split
  · trivial
  · refine filing_step nofun fun w₃ => ?_
    dsimp only [World.answer]
    cases hanswer : authenticateDevice E w₃.store text with
    | error err => trivial
    | ok auth =>
      obtain ⟨secret, _, _, hparse, -⟩ := authenticateDevice_eq_ok hanswer
      refine filing_step ?_ fun _ => trivial
      rintro key now _ ⟨⟩
      exact ⟨text, secret, rfl, hparse⟩

theorem current_filing {id : Nat} : (current id).Safe (World.answer E) (filing E) (fun _ _ => True) w := by
  refine filing_step nofun fun w₁ => ?_
  split
  · trivial
  · split
    · trivial
    · refine filing_step nofun fun w₂ => ?_
      split
      · trivial
      · refine filing_step nofun fun w₃ => ?_
        split
        · trivial
        · exact filing_step nofun fun _ => filing_step nofun fun _ => trivial
        · exact filing_step nofun fun _ => trivial

theorem process_filing : (process E).Keeps (filing E) (fun _ _ => True) where
  refl _ := trivial
  trans _ _ := trivial
  stable _ _ _ _ _ := trivial
  env move w _ hinv := by
    cases move <;> exact ⟨hinv, trivial⟩
  main request w _ := by
    cases request with
    | authenticate text =>
      refine filing_step nofun fun w₁ => ?_
      rw [safe_bind]
      exact authenticate_filing.mono fun _ _ _ => trivial
    | openSession text =>
      change (authenticate E text >>= _).Safe _ _ _ w
      rw [safe_bind]
      refine authenticate_filing.mono fun _ _ _ => ?_
      exact filing_step nofun fun _ => filing_step nofun fun _ => trivial
    | current id =>
      refine filing_step nofun fun w₁ => ?_
      rw [safe_bind]
      exact current_filing.mono fun _ _ _ => trivial
    | invalidate lookupID => exact filing_step nofun fun _ => trivial

omit [DecidableEq ι] in
theorem filing_considers (σ : Running ι) (cue : Cue ι Request Unit Move) : System.Considers (filing E) σ cue := by
  cases cue with
  | start => trivial
  | call => exact fun _ _ _ => trivial
  | stop i => trivial
  | env x => trivial

/-! ## Answers about to be filed -/

/-- A caller files the store's answer in the step after it, and files nothing else. -/
def answering : Protocol Call Call.Result (Option AuthenticatedDevice) where
  Allows pending c := match c with
    | .insert _ _ auth => pending = some auth
    | _ => pending = none
  next _ c := match c with
    | .authenticateDevice _ => fun answer => answer.toOption
    | _ => fun _ => none

theorem authenticate_answering : (authenticate E text).Follows answering (fun _ pending => pending = none) none := by
  refine ⟨rfl, fun now => ⟨rfl, fun found => ?_⟩⟩
  cases found with
  | some auth => rfl
  | none =>
    refine ⟨rfl, fun answer => ?_⟩
    cases answer with
    | error err => rfl
    | ok auth => exact ⟨rfl, fun _ => rfl⟩

theorem current_answering {id : Nat} : (current id).Follows answering (fun _ pending => pending = none) none := by
  refine follows_perform_bind.2 ⟨rfl, fun found => ?_⟩
  cases found with
  | none => rfl
  | some s =>
    dsimp only
    split
    · rfl
    · refine follows_perform_bind.2 ⟨rfl, fun now => ?_⟩
      split
      · rfl
      · refine follows_perform_bind.2 ⟨rfl, fun answer => ?_⟩
        split
        · rfl
        · exact ⟨rfl, fun _ => ⟨rfl, fun _ => rfl⟩⟩
        · exact ⟨rfl, fun _ => rfl⟩

theorem serve_answering (request : Request) : (serve E request).Follows answering (fun _ _ => True) none := by
  cases request with
  | authenticate text =>
    refine follows_perform_bind.2 ⟨rfl, fun started => ?_⟩
    refine follows_bind.2 (authenticate_answering.mono ?_)
    rintro (err | auth) pending -
    · trivial
    · trivial
  | openSession text =>
    refine follows_bind.2 (authenticate_answering.mono ?_)
    rintro (err | auth) pending rfl
    · trivial
    · exact ⟨rfl, fun now => ⟨rfl, fun id => trivial⟩⟩
  | current id =>
    refine follows_perform_bind.2 ⟨rfl, fun started => ?_⟩
    refine follows_bind.2 (current_answering.mono ?_)
    rintro (err | confirmed) pending -
    · trivial
    · trivial
  | invalidate lookupID => exact ⟨rfl, fun _ => trivial⟩

/-! ## After an invalidation -/

/-- The lookup id is revoked: a row it still has is not active. -/
def Revoked (lookupID : String) (store : DeviceAuthStore) : Prop :=
  ∀ rows, store = some rows → ∀ row, rows.find? lookupID = some row → row.active = false

theorem Revoked.refuses {store : DeviceAuthStore} (h : Revoked lookupID store)
    (hanswer : authenticateDevice E store text = .ok auth) :
    auth.lookupID ≠ lookupID := by
  rintro rfl
  obtain ⟨_, rows, row, -, hstore, hrow, hactive⟩ := authenticateDevice_eq_ok hanswer
  rw [h rows hstore row hrow] at hactive
  cases hactive

/-- The steps of callers while the lookup id is revoked. -/
def WhileRevoked (lookupID : String) (σ : Running ι) :
    Cue ι Request Unit Move → Prop
  | .call _ _ => Revoked lookupID σ.state.store
  | _ => True

/-- When the caller evicts the lookup id, nobody is about to file a device with it. -/
def Unhurried (lookupID : String) (j : ι) (σ : Running ι) :
    Cue ι Request Unit Move → Prop
  | .call i _ => i = j → ∀ k, σ.thread i = some (.call (.invalidate lookupID) k) →
      ∀ i' key now auth k', σ.thread i' = some (.call (.insert key now auth) k') → auth.lookupID ≠ lookupID
  | _ => True

/-- Nothing with the lookup id is cached, and nothing is about to be. -/
structure Evicted (lookupID : String) (σ : Running ι)
    (τ : ι → Option AuthenticatedDevice) : Prop where
  entries : σ.state.cache.entries.All fun _ entry => entry.auth.lookupID ≠ lookupID
  pending : ∀ i c k auth, σ.thread i = some (.call c k) → τ i = some auth → auth.lookupID ≠ lookupID

variable {σ : Running ι} {τ : ι → Option AuthenticatedDevice}
  {cue : Cue ι Request Unit Move} {i j : ι}

theorem answering_allows (h : answering.Allows (some auth) c) : ∃ key now, c = .insert key now auth := by
  cases c with
  | insert key now other =>
    obtain rfl := Option.some.inj h
    exact ⟨key, now, rfl⟩
  | _ => cases h

/-- What is about to be filed after a step is what the store has just answered. -/
theorem answering_next {pending : Option AuthenticatedDevice}
    (h : answering.next pending c (World.answer E () w c).2 = some auth) :
    ∃ text, authenticateDevice E w.store text = .ok auth := by
  cases c with
  | authenticateDevice text =>
    refine ⟨text, ?_⟩
    change (authenticateDevice E w.store text).toOption = some auth at h
    cases hanswer : authenticateDevice E w.store text with
    | error err =>
      rw [hanswer] at h
      cases h
    | ok found =>
      rw [hanswer] at h
      exact congrArg _ (Option.some.inj h)
  | _ => cases h

/-- The entries after a move, if nobody was about to file anything else. -/
theorem all_play (h : σ.state.cache.entries.All F)
    (hnew : ∀ i key now auth k, σ.thread i = some (.call (.insert key now auth) k) →
      F key ⟨auth, now + σ.state.cache.ttl⟩) : ((process E).play σ cue).state.cache.entries.All F := by
  rcases (process E).play_state σ cue with hstate | ⟨i, o, c, k, -, hi, hstate⟩ | ⟨x, -, hstate⟩
  · rwa [hstate]
  · rw [hstate]
    refine all_answer h fun key now auth hc => ?_
    subst hc
    exact hnew i key now auth k hi
  · rw [hstate]
    cases x with
    | tick elapsed => exact h
    | commit store => exact h

theorem Evicted.play (h : Evicted lookupID σ τ) (htracks : System.Tracks answering σ τ)
    (hrevoked : WhileRevoked lookupID σ cue) :
    Evicted lookupID ((process E).play σ cue) ((process E).advance answering none σ τ cue) := by
  constructor
  · refine all_play h.entries fun i key now auth k hi => ?_
    have hpending : τ i = some auth := (htracks i _ hi).1
    exact h.pending i _ k auth hi hpending
  · intro i c k auth hi hauth
    rcases System.advance_thread answering none τ hi with ⟨hsame, hτ⟩ | ⟨m, -, -, hτ⟩ | ⟨o, c', k', hcue, -, -, hτ⟩
    · exact h.pending i c k auth hsame (hτ ▸ hauth)
    · rw [hτ] at hauth
      cases hauth
    · rw [hτ] at hauth
      obtain ⟨text, hanswer⟩ := answering_next hauth
      rw [hcue] at hrevoked
      exact Revoked.refuses hrevoked hanswer

/-- The program still has to evict the lookup id before it can report so. -/
def Awaits (lookupID : String) (p : Act Reply) : Prop :=
  p.Results (· ≠ .invalidated lookupID) ∨ ∃ k, p = .call (.invalidate lookupID) k

theorem serve_awaits (request : Request) : Awaits lookupID (serve E request) := by
  cases request with
  | authenticate | current =>
    exact .inl (results_perform_bind.2 fun _ => results_true.bind fun _ _ => nofun)
  | openSession text =>
    exact .inl (results_true.bind fun _ _ => results_true.bind fun _ _ => nofun)
  | invalidate other =>
    by_cases hother : other = lookupID
    · exact .inr ⟨_, by rw [hother]; rfl⟩
    · refine .inl fun _ h => ?_
      injection h with h
      exact hother h

/-- Until the caller has evicted the lookup id it still has to. -/
theorem evicted_or_awaits (h : Evicted lookupID σ τ ∨ ∀ p, σ.thread j = some p → Awaits lookupID p)
    (htracks : System.Tracks answering σ τ) (hrevoked : WhileRevoked lookupID σ cue)
    (hunhurried : Unhurried lookupID j σ cue) :
    Evicted lookupID ((process E).play σ cue) ((process E).advance answering none σ τ cue) ∨
      ∀ p, ((process E).play σ cue).thread j = some p → Awaits lookupID p := by
  rcases h with hevicted | hawaits
  · exact .inl (hevicted.play htracks hrevoked)
  by_cases hnow : ∃ o k, cue = .call j o ∧ σ.thread j = some (.call (.invalidate lookupID) k)
  · -- the eviction: whoever is about to file a device files another one
    obtain ⟨o, k, rfl, hj⟩ := hnow
    refine .inl ⟨?_, ?_⟩
    · have hstate : ((process E).play σ (.call j o)).state.cache = σ.state.cache.invalidate lookupID := by
        simp [System.play, hj, process, World.answer]
      rw [hstate]
      exact DeviceAuthCache.invalidate_all
    · intro i c k' auth hi hauth
      rcases System.advance_thread answering none τ hi with ⟨hsame, hτ⟩ | ⟨m, -, -, hτ⟩ | ⟨o', c', k'', hcue, hi', -, hτ⟩
      · have hpending : answering.Allows (some auth) c := by
          rw [← hauth, hτ]
          exact (htracks i _ hsame).1
        obtain ⟨key, now, rfl⟩ := answering_allows hpending
        exact hunhurried rfl k hj i key now auth k' hsame
      · rw [hτ] at hauth
        cases hauth
      · obtain ⟨rfl, -⟩ : j = i ∧ o = o' := by simpa using hcue
        obtain ⟨rfl, -⟩ : c' = .invalidate lookupID ∧ _ := by simpa using hi'.symm.trans hj
        rw [hτ] at hauth
        cases hauth
  · refine .inr fun p hp => ?_
    rcases System.play_thread hp with hsame | ⟨m, -, -, rfl⟩ | ⟨o, c, k, rfl, hj, rfl⟩
    · exact hawaits p hsame
    · exact serve_awaits m
    · rcases hawaits _ hj with hresults | ⟨k', hk'⟩
      · exact .inl (hresults _)
      · exact absurd ⟨o, k', rfl, hk' ▸ hj⟩ hnow

/-! ## Calls that start afterwards -/

/-- What a call finds after the eviction. -/
structure Gone (E : Env) (lookupID : String) (w : World) : Prop where
  filed : w.cache.entries.All fun key entry => FiledUnder E key entry.auth
  entries : w.cache.entries.All fun _ entry => entry.auth.lookupID ≠ lookupID
  revoked : Revoked lookupID w.store

variable {encoded : String} {secret : Bytes} {cues : List (Cue ι Request Unit Move)}

theorem authenticate_gone (hparse : parseDeviceCredential E encoded = some (lookupID, secret))
    (hkey : ∀ other, cacheKey E other = cacheKey E encoded → other = encoded) :
    (authenticate E text).Within (World.answer E) (Gone E lookupID) (fun _ => text ≠ encoded) := by
  refine within_perform_bind.2 fun _ w₁ _ => ?_
  refine within_perform_bind.2 fun _ w₂ hgone => ?_
  dsimp only [World.answer]
  cases hfound : (w₂.cache.lookup (cacheKey E text) w₁.clock).2 with
  | some auth =>
    rintro rfl
    obtain ⟨entry, hentry, -, -⟩ := DeviceAuthCache.lookup_eq_some hfound
    -- the entry is filed under this very credential, so it has the lookup id
    obtain ⟨other, _, hother, hlookup⟩ := hgone.filed _ _ hentry
    rw [hkey other hother.symm, hparse] at hlookup
    have hid : lookupID = entry.auth.lookupID := congrArg Prod.fst (Option.some.inj hlookup)
    exact hgone.entries _ _ hentry hid.symm
  | none =>
    refine within_perform_bind.2 fun _ w₃ hgone₃ => ?_
    dsimp only [World.answer]
    cases hanswer : authenticateDevice E w₃.store text with
    | error err => trivial
    | ok auth =>
      refine within_perform_bind.2 fun _ _ _ => ?_
      rintro rfl
      obtain ⟨_, _, _, hlookup, -⟩ := authenticateDevice_eq_ok hanswer
      rw [hparse] at hlookup
      have hid : lookupID = auth.lookupID := congrArg Prod.fst (Option.some.inj hlookup)
      exact hgone₃.revoked.refuses hanswer hid.symm

theorem serve_gone (hparse : parseDeviceCredential E encoded = some (lookupID, secret))
    (hkey : ∀ other, cacheKey E other = cacheKey E encoded → other = encoded) (request : Request) :
    (serve E request).Within (World.answer E) (Gone E lookupID)
      (fun reply => ∀ started auth, reply ≠ .authenticated encoded started auth) := by
  cases request with
  | authenticate text =>
    refine within_perform_bind.2 fun _ w _ => ?_
    refine (authenticate_gone hparse hkey).bind fun auth htext => ?_
    rintro started auth' ⟨⟩
    exact htext rfl
  | openSession text =>
    refine Results.within (results_true.bind fun _ _ => results_true.bind fun _ _ => ?_)
    rintro started auth ⟨⟩
  | current id =>
    refine Results.within (results_perform_bind.2 fun _ => results_true.bind fun _ _ => ?_)
    rintro started auth ⟨⟩
  | invalidate other =>
    refine within_perform_bind.2 fun _ _ _ => ?_
    rintro started auth ⟨⟩

/-! ## Runs -/

/-- What holds throughout: devices are filed under their credentials, by callers that file the store's answers. -/
structure Filing (E : Env) (σ : Running ι) (τ : ι → Option AuthenticatedDevice) : Prop where
  tracks : System.Tracks answering σ τ
  good : (process E).Good (filing E) (fun _ _ => True) σ

theorem Filing.play (h : Filing E σ τ) (cue : Cue ι Request Unit Move) :
    Filing E ((process E).play σ cue) ((process E).advance answering none σ τ cue) :=
  ⟨h.tracks.play serve_answering cue, h.good.play process_filing (.inr fun _ _ _ => trivial) (filing_considers σ cue)⟩

theorem filing_run (h : Filing E σ τ) (cues : List (Cue ι Request Unit Move)) :
    ∃ τ', Filing E (cues.foldl (process E).play σ) τ' := by
  induction cues generalizing σ τ with
  | nil => exact ⟨τ, h⟩
  | cons cue cues ih => exact ih (h.play cue)

/-- When the caller has reported the eviction, the lookup id is evicted. -/
theorem evicted_run (h : Filing E σ τ) (hor : Evicted lookupID σ τ ∨ ∀ p, σ.thread j = some p → Awaits lookupID p)
    (hrevoked : (process E).Meets (WhileRevoked lookupID) σ cues)
    (hunhurried : (process E).Meets (Unhurried lookupID j) σ cues)
    (hreturned : (cues.foldl (process E).play σ).returned j = some (.invalidated lookupID)) :
    ∃ τ', Filing E (cues.foldl (process E).play σ) τ' ∧ Evicted lookupID (cues.foldl (process E).play σ) τ' := by
  induction cues generalizing σ τ with
  | nil =>
    refine ⟨τ, h, hor.resolve_right fun hawaits => ?_⟩
    rcases hawaits _ (Config.returned_eq_some.1 hreturned) with hresult | ⟨k, hk⟩
    · exact hresult rfl
    · cases hk
  | cons cue cues ih =>
    exact ih (h.play cue) (evicted_or_awaits hor h.tracks hrevoked.1 hunhurried.1) hrevoked.2 hunhurried.2 hreturned

/-- After the eviction, what runs in a place that was free refuses the credential. -/
theorem gone_run (hparse : parseDeviceCredential E encoded = some (lookupID, secret))
    (hkey : ∀ other, cacheKey E other = cacheKey E encoded → other = encoded) (h : Filing E σ τ)
    (hevicted : Evicted lookupID σ τ) (hrevoked : (process E).Meets (WhileRevoked lookupID) σ cues)
    (hends : ∀ p, σ.thread i = some p → p.Within (World.answer E) (Gone E lookupID)
      (fun reply => ∀ started auth, reply ≠ .authenticated encoded started auth)) :
    ∀ p, (cues.foldl (process E).play σ).thread i = some p → p.Within (World.answer E) (Gone E lookupID)
      (fun reply => ∀ started auth, reply ≠ .authenticated encoded started auth) := by
  induction cues generalizing σ τ with
  | nil => exact hends
  | cons cue cues ih =>
    refine ih (h.play cue) (hevicted.play h.tracks hrevoked.1) hrevoked.2 ?_
    refine (process E).within_play (serve_gone hparse hkey) (fun o ho => ?_) hends
    have hstore := hrevoked.1
    rw [ho] at hstore
    exact ⟨h.good.inv, hevicted.entries, hstore⟩

variable {clock : Int} {store : DeviceAuthStore} {ttl : Int}
variable {text : String} {w : World} {auth : AuthenticatedDevice} {c : Call}

/-- **Invalidation is immediate** if it is not overtaken. The lookup id is revoked in the store, `Invalidate` is called
afterwards and has returned, and when it ran nobody was about to file a device with the lookup id. Then no
`Authenticate` that starts later succeeds for a credential with it. -/
theorem invalidation_immediate (hparse : parseDeviceCredential E encoded = some (lookupID, secret))
    (hkey : ∀ other, cacheKey E other = cacheKey E encoded → other = encoded)
    {before between after : List (Cue ι Request Unit Move)}
    (hrevoked : (process E).Meets (WhileRevoked lookupID) (runFrom E clock store ttl before) (between ++ after))
    (hcalled : (runFrom E clock store ttl before).thread j = none)
    (hreturned : (runFrom E clock store ttl (before ++ between)).returned j = some (.invalidated lookupID))
    (hunhurried : (process E).Meets (Unhurried lookupID j) (runFrom E clock store ttl before) between)
    (hstarts : (runFrom E clock store ttl (before ++ between)).thread i = none) (started : Int)
    (auth : AuthenticatedDevice) :
    (runFrom E clock store ttl (before ++ between ++ after)).returned i ≠
      some (.authenticated encoded started auth) := by
  have hfresh : Filing E (⟨.fresh clock store ttl, fun _ => none⟩ : Running ι) (fun _ => none) :=
    ⟨nofun, Table.All.empty, nofun⟩
  obtain ⟨τ₀, hfiling₀⟩ := filing_run hfresh before
  change Filing E (runFrom E clock store ttl before) τ₀ at hfiling₀
  obtain ⟨hbetween, hafter⟩ := System.meets_append.1 hrevoked
  have hrun₁ : between.foldl (process E).play (runFrom E clock store ttl before) =
      runFrom E clock store ttl (before ++ between) := List.foldl_append.symm
  have hrun₂ : after.foldl (process E).play (runFrom E clock store ttl (before ++ between)) =
      runFrom E clock store ttl (before ++ between ++ after) := List.foldl_append.symm
  have hidle : ∀ p, (runFrom E clock store ttl before).thread j = some p → Awaits lookupID p := by
    intro p hp
    rw [hcalled] at hp
    cases hp
  obtain ⟨τ₁, hfiling₁, hevicted⟩ := evicted_run hfiling₀ (.inr hidle) hbetween hunhurried (hrun₁ ▸ hreturned)
  rw [hrun₁] at hfiling₁ hevicted hafter
  have hends := gone_run hparse hkey hfiling₁ hevicted hafter fun p hp => by rw [hstarts] at hp; cases hp
  rw [hrun₂] at hends
  intro hdone
  exact hends _ (Config.returned_eq_some.1 hdone) started auth rfl

/-! ## One credential -/

/-- The credential is not active. -/
def inactive (σ : Running (Fin 3)) : Bool :=
  σ.state.store.map Table.rows == (credentialStore false).map Table.rows

theorem whileRevoked_of {σ : Running (Fin 3)} {cue : Cue (Fin 3) Request Unit Move} (h : inactive σ = true) :
    WhileRevoked "l" σ cue := by
  have hstore : σ.state.store = credentialStore false := rows_inj (beq_iff_eq.1 h)
  have hrevoked : Revoked "l" (credentialStore false) := by
    intro rows hrows row hrow
    obtain rfl := Option.some.inj hrows
    revert row
    decide +kernel
  cases cue with
  | call =>
    change Revoked "l" σ.state.store
    rwa [hstore]
  | start => trivial
  | stop i => trivial
  | env x => trivial

/-- The caller is about to file a device. -/
def aboutToFile (σ : Running (Fin 3)) (i : Fin 3) : Bool :=
  match σ.thread i with
  | some (.call (.insert ..) _) => true
  | _ => false

theorem unhurried_of {σ : Running (Fin 3)} {cue : Cue (Fin 3) Request Unit Move}
    (h : ∀ i, aboutToFile σ i = false) : Unhurried "l" 1 σ cue := by
  cases cue with
  | call =>
    intro _ _ _ i' key now auth k' hi'
    have hnot := h i'
    simp [aboutToFile, hi'] at hnot
  | start => trivial
  | stop i => trivial
  | env x => trivial

/-- The credential is presented, for so many steps, and revoked. -/
def presented (n : Nat) : List (Cue (Fin 3) Request Unit Move) :=
  .start 0 (.authenticate "l.s") :: steps 0 n ++ [.env (.commit (credentialStore false))]

/-- The credential is evicted. -/
def evicting : List (Cue (Fin 3) Request Unit Move) := [.start 1 (.invalidate "l"), .call 1 ()]

/-- The credential is presented again. -/
def presentedAgain : List (Cue (Fin 3) Request Unit Move) := .start 2 (.authenticate "l.s") :: steps 2 4

/-- The runs of a process that starts with the active credential. -/
abbrev credentialRun₃ : List (Cue (Fin 3) Request Unit Move) → Running (Fin 3) :=
  runFrom plain 0 (credentialStore true) deviceRevalidationBound

/-- The credential is cached, revoked and evicted; then it is refused. -/
theorem invalidation_immediate_device :
    (credentialRun₃ (presented 5)).state.cache.entries.rows.length = 1 ∧
    (credentialRun₃ (presented 5 ++ evicting)).returned 1 = some (.invalidated "l") ∧
    (credentialRun₃ (presented 5 ++ evicting ++ presentedAgain)).returned 2 ≠
      some (.authenticated "l.s" 0 device) := by
  have hrevoked : (process plain).Meets (fun σ _ => inactive σ = true) (credentialRun₃ (presented 5))
      (evicting ++ presentedAgain) := by decide +kernel
  have hunhurried : (process plain).Meets (fun σ _ => ∀ i, aboutToFile σ i = false) (credentialRun₃ (presented 5))
      evicting := by decide +kernel
  have hreturned : (credentialRun₃ (presented 5 ++ evicting)).returned 1 = some (.invalidated "l") := by decide +kernel
  have hparse : parseDeviceCredential plain "l.s" = some ("l", List.replicate 32 0) := by decide +kernel
  have hrefused := invalidation_immediate (i := 2) hparse (fun _ => plain_cacheKey)
    (hrevoked.mono fun _ _ => whileRevoked_of) rfl hreturned (hunhurried.mono fun _ _ => unhurried_of) rfl 0 device
  exact ⟨by decide +kernel, hreturned, hrefused⟩

/-- The credential is revoked and evicted between the store's answer and the step that files it; then it is accepted
from the cache. -/
theorem invalidation_overtaken :
    parseDeviceCredential plain "l.s" = some ("l", List.replicate 32 0) ∧
    (process plain).Meets (WhileRevoked "l") (credentialRun₃ (presented 4))
      (evicting ++ (.call 0 () :: presentedAgain)) ∧
    (credentialRun₃ (presented 4)).thread 1 = none ∧
    (credentialRun₃ (presented 4 ++ evicting)).returned 1 = some (.invalidated "l") ∧
    (credentialRun₃ (presented 4 ++ evicting)).thread 2 = none ∧
    (credentialRun₃ (presented 4 ++ evicting ++ (.call 0 () :: presentedAgain))).returned 2 =
      some (.authenticated "l.s" 0 device) := by
  have hrevoked : (process plain).Meets (fun σ _ => inactive σ = true) (credentialRun₃ (presented 4))
      (evicting ++ (.call 0 () :: presentedAgain)) := by decide +kernel
  exact ⟨by decide +kernel, hrevoked.mono fun _ _ => whileRevoked_of, rfl, by decide +kernel, rfl, by decide +kernel⟩

end Punaro.Postgres
