import Punaro.Postgres.DeviceCache

/-!
# Revocation reaches caches and sessions

A credential is revoked at an instant `r`: from then on the store refuses it. What
the process still accepts rests on an answer the store gave before.

* `Authenticate` reads the clock before it asks, so an entry expires within the bound
  after the store's answer.
* A session checks again within the bound after it was opened or last confirmed. It is
  opened on an authentication that may itself come from the cache, which is where the
  two delays add up.
-/

namespace Punaro.Postgres

open Prog

/-! ## The cache -/

namespace DeviceAuthCache

variable {c : DeviceAuthCache} {key : Bytes} {now : Int} {auth : AuthenticatedDevice}
  {F : Bytes → CachedDevice → Prop}
variable {lookupID : String}

theorem lookup_eq_some (h : (c.lookup key now).2 = some auth) :
    ∃ entry, c.entries.find? key = some entry ∧ now < entry.expiresAt ∧ entry.auth = auth := by
  unfold lookup at h
  cases hentry : (c.entries.find? key).filter fun entry => now < entry.expiresAt with
  | none =>
    rw [hentry] at h
    cases h
  | some entry =>
    rw [hentry] at h
    obtain ⟨hfind, hlive⟩ := Option.filter_eq_some_iff.1 hentry
    exact ⟨entry, hfind, of_decide_eq_true hlive, Option.some.inj h⟩

@[simp] theorem lookup_ttl : (c.lookup key now).1.ttl = c.ttl := by
  unfold lookup
  split <;> rfl

@[simp] theorem insert_ttl : (c.insert key now auth).ttl = c.ttl := rfl

@[simp] theorem invalidate_ttl : (c.invalidate lookupID).ttl = c.ttl := rfl

theorem all_lookup (h : c.entries.All F) : (c.lookup key now).1.entries.All F := by
  unfold lookup
  split
  · exact h
  · exact h.deleteWhere _

/-- Making room only removes entries. -/
theorem all_insert (h : c.entries.All F) (hnew : F key ⟨auth, now + c.ttl⟩) :
    (c.insert key now auth).entries.All F := by
  have hlive := h.deleteWhere fun _ cached => !decide (now < cached.expiresAt)
  refine Table.All.put ?_ hnew
  split
  · split
    · exact hlive.deleteWhere _
    · exact hlive
  · exact hlive

theorem all_invalidate (h : c.entries.All F) : (c.invalidate lookupID).entries.All F :=
  h.deleteWhere _

theorem invalidate_all : (c.invalidate lookupID).entries.All fun _ entry => entry.auth.lookupID ≠ lookupID := by
  intro key entry hfind
  have hkept := (Table.find?_deleteWhere_eq_some.1 hfind).2
  exact fun h => by simp [h] at hkept

end DeviceAuthCache

variable {w : World} {r : Int} {f : DeviceSession → DeviceSession} {cue : Cue Nat Request Unit Move}

theorem newDeviceAuthCache_ttl (ttl : Int) : (newDeviceAuthCache ttl).ttl ≤ deviceRevalidationBound := by
  unfold newDeviceAuthCache
  dsimp only
  split
  · exact le_rfl
  · rename_i h
    simp only [Bool.or_eq_true, decide_eq_true_eq, not_or, not_lt] at h
    exact h.2

/-! ## A revocation -/

section

variable (E : Env) (encoded : String) (Of : AuthenticatedDevice → Prop) (r : Int)

/-- The store refuses the credential from the instant on, and every session on one of its authentications. -/
structure RevokedAt (w : World) : Prop where
  of : ∀ auth, authenticateDevice E w.store encoded = .ok auth → Of auth
  refused : r ≤ w.clock → ∀ auth, authenticateDevice E w.store encoded ≠ .ok auth
  ended : r ≤ w.clock → ∀ auth, Of auth → deviceSessionCurrent E w.store auth ≠ .ok true

/-- The steps of callers in a run in which the credential is revoked at the instant. -/
def Revoking {ι : Type} (σ : Running ι) : Cue ι Request Unit Move → Prop
  | .call _ _ => RevokedAt E encoded Of r σ.state
  | _ => True

/-- A session on one of the authentications is opened early enough. -/
def OpenedInTime (w : World) : Call → Prop
  | .newSession auth now => Of auth → now + w.cache.ttl ≤ r + deviceRevalidationBound
  | _ => True

/-- The steps of callers in a run in which every session is opened early enough. -/
def InTime {ι : Type} (σ : Running ι) : Cue ι Request Unit Move → Prop
  | .call i _ => ∀ c k, σ.thread i = some (.call c k) → OpenedInTime Of r σ.state c
  | _ => True

/-- What holds of the cache and, if sessions are opened in time, of the sessions. -/
structure Expiring (timely : Prop) (w : World) : Prop where
  ttl : w.cache.ttl ≤ deviceRevalidationBound
  entries : w.cache.entries.All fun k entry => k = cacheKey E encoded →
    Of entry.auth ∧ entry.expiresAt < r + deviceRevalidationBound
  sessions : timely → ∀ s ∈ w.sessions, Of s.auth → s.nextCheck ≤ r + deviceRevalidationBound

end

/-- What no caller undoes: the clock only goes on, and a session stays on its authentication. -/
structure Later (w w' : World) : Prop where
  clock : w.clock ≤ w'.clock
  sessions : ∀ (id : Nat) (s : DeviceSession), w.sessions[id]? = some s →
    ∃ s', w'.sessions[id]? = some s' ∧ s'.auth = s.auth

theorem Later.refl (w : World) : Later w w := ⟨le_rfl, fun _ s hs => ⟨s, hs, rfl⟩⟩

theorem Later.trans {a b c : World} (h : Later a b) (h' : Later b c) : Later a c := by
  refine ⟨h.clock.trans h'.clock, fun id s hs => ?_⟩
  obtain ⟨s', hs', hauth⟩ := h.sessions id s hs
  obtain ⟨s'', hs'', hauth'⟩ := h'.sessions id s' hs'
  exact ⟨s'', hs'', hauth'.trans hauth⟩

/-- Nothing but the cache changes. -/
theorem Later.cache {cache : DeviceAuthCache} : Later w { w with cache } :=
  ⟨le_rfl, fun _ s hs => ⟨s, hs, rfl⟩⟩

theorem Later.append {l : List DeviceSession} : Later w { w with sessions := w.sessions ++ l } :=
  ⟨le_rfl, fun _ s hs => ⟨s, (List.getElem?_append_left (List.getElem?_eq_some_iff.1 hs).1).trans hs, rfl⟩⟩

theorem Later.setSession {id : Nat} (hf : ∀ s, (f s).auth = s.auth) : Later w (w.setSession id f) := by
  refine ⟨le_rfl, fun id' s hs => ?_⟩
  by_cases hid : id = id'
  · exact ⟨f s, by simp [World.setSession, hid, hs], hf s⟩
  · exact ⟨s, by simp [World.setSession, hid, hs], rfl⟩

section

variable {E : Env} {encoded : String} {Of : AuthenticatedDevice → Prop} {r : Int} {timely : Prop} {w : World}

/-- What the callers keep to while the credential is revoked at `r`. -/
def revocation (E : Env) (encoded : String) (Of : AuthenticatedDevice → Prop) (r : Int) (timely : Prop) :
    Discipline World Call Unit Move where
  Inv := Expiring E encoded Of r timely
  Rely := Later
  Guar := Later
  Pre _ _ := True
  Allows _ w c := RevokedAt E encoded Of r w ∧ (timely → OpenedInTime Of r w c)
  Moves _ _ := True

/-- How a call ends that rests on an answer the store gave before the revocation. -/
def EndsInTime (encoded : String) (Of : AuthenticatedDevice → Prop) (r : Int) (timely : Prop) : Reply → World → Prop
  | .authenticated text started _, _ => text = encoded → started < r + deviceRevalidationBound
  | .current id started true, w => timely → ∃ s, w.sessions[id]? = some s ∧
      (Of s.auth → started < r + deviceRevalidationBound)
  | _, _ => True

theorem Expiring.setCache (h : Expiring E encoded Of r timely w) {cache : DeviceAuthCache}
    (httl : cache.ttl = w.cache.ttl)
    (hentries : cache.entries.All fun k entry => k = cacheKey E encoded →
      Of entry.auth ∧ entry.expiresAt < r + deviceRevalidationBound) :
    Expiring E encoded Of r timely { w with cache } :=
  ⟨httl.trans_le h.ttl, hentries, h.sessions⟩

/-- A step of a caller: what it may rely on, and what it keeps. -/
theorem safe_made {α : Type} {c : Call} {f : c.Result → Act α} {Q : α → World → Prop}
    (hstep : ∀ w', Later w w' → Expiring E encoded Of r timely w' → RevokedAt E encoded Of r w' →
      (timely → OpenedInTime Of r w' c) →
      Later w' (World.answer E () w' c).1 ∧ Expiring E encoded Of r timely (World.answer E () w' c).1 ∧
      (f (World.answer E () w' c).2).Safe (World.answer E) (revocation E encoded Of r timely) Q
        (World.answer E () w' c).1) :
    (c.made >>= f).Safe (World.answer E) (revocation E encoded Of r timely) Q w :=
  fun w' hlater hinv => ⟨trivial, fun _ hallows => hstep w' hlater hinv hallows.1 hallows.2⟩

/-- A step that only asks. -/
theorem safe_asked {α : Type} {c : Call} {f : c.Result → Act α} {Q : α → World → Prop}
    (hsame : ∀ w', (World.answer E () w' c).1 = w')
    (hstep : ∀ w', Later w w' → Expiring E encoded Of r timely w' → RevokedAt E encoded Of r w' →
      (f (World.answer E () w' c).2).Safe (World.answer E) (revocation E encoded Of r timely) Q w') :
    (c.made >>= f).Safe (World.answer E) (revocation E encoded Of r timely) Q w := by
  refine safe_made fun w' hlater hinv hrevoked _ => ?_
  rw [hsame w']
  exact ⟨Later.refl w', hinv, hstep w' hlater hinv hrevoked⟩

/-- `Authenticate`, started at an instant the clock has reached. -/
theorem authenticate_safe (hkey : ∀ other, cacheKey E other = cacheKey E encoded → other = encoded) {text : String}
    {started : Int} (hstarted : started ≤ w.clock) :
    (authenticate E text).Safe (World.answer E) (revocation E encoded Of r timely)
      (fun _ _ => text = encoded → started < r + deviceRevalidationBound) w := by
  refine safe_asked (fun _ => rfl) fun w₁ hlater₁ _ _ => ?_
  have hnow : started ≤ w₁.clock := hstarted.trans hlater₁.clock
  refine safe_made fun w₂ hlater₂ hinv₂ _ _ => ?_
  refine ⟨.cache, hinv₂.setCache DeviceAuthCache.lookup_ttl (DeviceAuthCache.all_lookup hinv₂.entries), ?_⟩
  dsimp only [World.answer]
  cases hfound : (w₂.cache.lookup (cacheKey E text) w₁.clock).2 with
  | some auth =>
    -- the entry was live when the clock was read
    obtain ⟨entry, hentry, hlive, -⟩ := DeviceAuthCache.lookup_eq_some hfound
    rintro rfl
    have hexpires := (hinv₂.entries _ _ hentry rfl).2
    omega
  | none =>
    refine safe_asked (fun _ => rfl) fun w₃ hlater₃ hinv₃ hrevoked => ?_
    dsimp only [World.answer]
    cases hanswer : authenticateDevice E w₃.store text with
    | error err => trivial
    | ok auth =>
      -- the store has not refused the credential yet, so the clock was read before the revocation
      have hbefore : text = encoded → w₁.clock < r := by
        rintro rfl
        by_contra hafter
        have hclock : w₁.clock ≤ w₃.clock := hlater₂.clock.trans hlater₃.clock
        exact hrevoked.refused (by omega) auth hanswer
      refine safe_made fun w₄ _ hinv₄ _ _ => ?_
      have hnew : cacheKey E text = cacheKey E encoded →
          Of auth ∧ w₁.clock + w₄.cache.ttl < r + deviceRevalidationBound := by
        intro hsame
        have htext := hkey text hsame
        have httl := hinv₄.ttl
        have hclock := hbefore htext
        exact ⟨hrevoked.of auth (htext ▸ hanswer), by omega⟩
      refine ⟨.cache, hinv₄.setCache rfl (DeviceAuthCache.all_insert hinv₄.entries hnew), ?_⟩
      intro htext
      have hclock := hbefore htext
      have hbound : (0 : Int) < deviceRevalidationBound := by decide
      omega

/-- `NewSession`, if the session is opened in time. -/
theorem newSession_safe {auth : AuthenticatedDevice} :
    (newSession auth).Safe (World.answer E) (revocation E encoded Of r timely) (fun _ _ => True) w := by
  refine safe_asked (fun _ => rfl) fun w₁ _ _ _ => ?_
  rw [safe_perform]
  intro w₂ hlater hinv
  refine ⟨trivial, fun _ hallows => ⟨.append, ⟨hinv.ttl, hinv.entries, ?_⟩, trivial⟩⟩
  intro htimely s hs hof
  rcases List.mem_append.1 hs with hs | hs
  · exact hinv.sessions htimely s hs hof
  · rw [List.mem_singleton.1 hs] at hof ⊢
    exact hallows.2 htimely hof

/-- The sessions after one of them was closed or confirmed. -/
theorem Expiring.setSession (h : Expiring E encoded Of r timely w) {id : Nat}
    (hf : timely → ∀ s ∈ w.sessions, w.sessions[id]? = some s → Of (f s).auth →
      (f s).nextCheck ≤ r + deviceRevalidationBound) : Expiring E encoded Of r timely (w.setSession id f) := by
  refine ⟨h.ttl, h.entries, fun htimely s hs hof => ?_⟩
  obtain ⟨i, hi⟩ := List.getElem?_of_mem hs
  change (w.sessions.modify id f)[i]? = some s at hi
  rw [List.getElem?_modify] at hi
  obtain ⟨s', hs', rfl⟩ := Option.map_eq_some_iff.1 hi
  have hmem := List.mem_of_getElem? hs'
  by_cases hid : id = i
  · subst hid
    rw [if_pos rfl] at hof ⊢
    exact hf htimely s' hmem hs' hof
  · rw [if_neg hid] at hof ⊢
    exact h.sessions htimely s' hmem hof

/-- `Current`, started at an instant the clock has reached. -/
theorem current_safe {id : Nat} {started : Int} (hstarted : started ≤ w.clock) :
    (current id).Safe (World.answer E) (revocation E encoded Of r timely)
      (fun b w => b = true → timely → ∃ s, w.sessions[id]? = some s ∧
        (Of s.auth → started < r + deviceRevalidationBound)) w := by
  refine safe_asked (fun _ => rfl) fun w₁ hlater₁ hinv₁ _ => ?_
  dsimp only [World.answer]
  cases hs : w₁.sessions[id]? with
  | none => exact nofun
  | some s =>
    have hmem := List.mem_of_getElem? hs
    dsimp only
    split
    · exact nofun
    refine safe_asked (fun _ => rfl) fun w₂ hlater₂ _ _ => ?_
    have hnow : started ≤ w₂.clock := hstarted.trans (hlater₁.clock.trans hlater₂.clock)
    split
    · -- the store is not asked
      rename_i hahead
      change w₂.clock < s.nextCheck at hahead
      intro _ htimely
      obtain ⟨s', hs', hauth⟩ := hlater₂.sessions id s hs
      refine ⟨s', hs', fun hof => ?_⟩
      have hnext := hinv₁.sessions htimely s hmem (hauth ▸ hof)
      omega
    refine safe_asked (fun _ => rfl) fun w₃ hlater₃ _ hrevoked => ?_
    dsimp only [World.answer]
    cases hanswer : deviceSessionCurrent E w₃.store s.auth with
    | error err => trivial
    | ok confirmed =>
      cases confirmed with
      | false =>
        refine safe_made fun w₄ _ hinv₄ _ _ => ?_
        refine ⟨.setSession fun _ => rfl, hinv₄.setSession fun htimely s hs _ => hinv₄.sessions htimely s hs, ?_⟩
        refine safe_made fun w₅ _ hinv₅ _ _ => ?_
        exact ⟨.cache, hinv₅.setCache rfl (DeviceAuthCache.all_invalidate hinv₅.entries), nofun⟩
      | true =>
        -- the store has not ended the session yet, so the clock was read before the revocation
        have hbefore : Of s.auth → w₂.clock < r := by
          intro hof
          by_contra hafter
          have hclock := hlater₃.clock
          exact hrevoked.ended (by omega) s.auth hof hanswer
        have hbound : (0 : Int) < deviceRevalidationBound := by decide
        refine safe_made fun w₄ hlater₄ hinv₄ _ _ => ?_
        obtain ⟨s', hs', hauth⟩ := (hlater₂.trans (hlater₃.trans hlater₄)).sessions id s hs
        have httl := hinv₄.ttl
        refine ⟨.setSession fun _ => rfl, hinv₄.setSession ?_, ?_⟩
        · intro _ t _ ht hof
          obtain rfl : t = s' := Option.some.inj (ht.symm.trans hs')
          have hclock := hbefore (hauth ▸ hof)
          change w₂.clock + w₄.cache.ttl ≤ _
          omega
        · intro _ _
          refine ⟨{ s' with nextCheck := w₂.clock + w₄.cache.ttl }, ?_, fun hof => ?_⟩
          · simp [World.answer, World.setSession, hs']
          · have hclock := hbefore (hauth ▸ hof)
            omega

/-- Every call keeps to the discipline. -/
theorem serve_safe (hkey : ∀ other, cacheKey E other = cacheKey E encoded → other = encoded) (request : Request) :
    (serve E request).Safe (World.answer E) (revocation E encoded Of r timely) (EndsInTime encoded Of r timely) w := by
  cases request with
  | authenticate text =>
    refine safe_asked (fun _ => rfl) fun w₁ _ _ _ => ?_
    rw [safe_bind]
    exact (authenticate_safe hkey le_rfl).mono fun _ _ hended => hended
  | openSession text =>
    change (authenticate E text >>= _).Safe _ _ _ w
    rw [safe_bind]
    refine (authenticate_safe hkey le_rfl).mono fun auth w₁ _ => ?_
    rw [safe_bind]
    exact newSession_safe.mono fun _ _ _ => trivial
  | current id =>
    refine safe_asked (fun _ => rfl) fun w₁ _ _ _ => ?_
    rw [safe_bind]
    refine (current_safe le_rfl).mono fun confirmed w₂ hended => ?_
    cases confirmed with
    | false => trivial
    | true => exact hended rfl
  | invalidate lookupID =>
    refine safe_made fun w₁ _ hinv _ _ => ?_
    exact ⟨.cache, hinv.setCache rfl (DeviceAuthCache.all_invalidate hinv.entries), trivial⟩

theorem process_keeps (hkey : ∀ other, cacheKey E other = cacheKey E encoded → other = encoded) :
    (process E).Keeps (revocation E encoded Of r timely) (EndsInTime encoded Of r timely) where
  refl := Later.refl
  trans := Later.trans
  stable reply w w' hlater hended := by
    cases reply with
    | authenticated => exact hended
    | opened id => trivial
    | invalidated lookupID => trivial
    | current id started confirmed =>
      cases confirmed with
      | false => trivial
      | true =>
        intro htimely
        obtain ⟨s, hs, hbound⟩ := hended htimely
        obtain ⟨s', hs', hauth⟩ := hlater.sessions id s hs
        exact ⟨s', hs', fun hof => hbound (hauth ▸ hof)⟩
  env move w _ hinv := by
    cases move with
    | tick elapsed =>
      have hclock : w.clock ≤ w.clock + elapsed := by omega
      exact ⟨⟨hinv.ttl, hinv.entries, hinv.sessions⟩, ⟨hclock, fun _ s hs => ⟨s, hs, rfl⟩⟩⟩
    | commit store => exact ⟨⟨hinv.ttl, hinv.entries, hinv.sessions⟩, ⟨le_rfl, fun _ s hs => ⟨s, hs, rfl⟩⟩⟩
  main request w _ := serve_safe hkey request

/-- A process that has just started has nothing to forget. -/
theorem expiring_fresh {clock : Int} {store : DeviceAuthStore} {ttl : Int} :
    Expiring E encoded Of r timely (.fresh clock store ttl) :=
  ⟨newDeviceAuthCache_ttl ttl, Table.All.empty, fun _ => nofun⟩

variable {ι : Type} [DecidableEq ι] {clock : Int} {store : DeviceAuthStore} {ttl : Int}
  {cues : List (Cue ι Request Unit Move)}

/-- The run of a process from its start on. -/
abbrev runFrom (E : Env) (clock : Int) (store : DeviceAuthStore) (ttl : Int) (cues : List (Cue ι Request Unit Move)) :
    Running ι :=
  (process E).run (.fresh clock store ttl) cues

/-- Every move of the run of a process meets the condition. -/
abbrev RunMeets (E : Env) (clock : Int) (store : DeviceAuthStore) (ttl : Int)
    (A : Running ι → Cue ι Request Unit Move → Prop)
    (cues : List (Cue ι Request Unit Move)) : Prop :=
  (process E).Meets A ⟨.fresh clock store ttl, fun _ => none⟩ cues

theorem run_good (hkey : ∀ other, cacheKey E other = cacheKey E encoded → other = encoded)
    (hrevoked : RunMeets E clock store ttl (Revoking E encoded Of r) cues)
    (htimely : RunMeets E clock store ttl (fun σ cue => timely → InTime Of r σ cue) cues) :
    (process E).Good (revocation E encoded Of r timely) (EndsInTime encoded Of r timely)
      (runFrom E clock store ttl cues) := by
  refine System.safe (process_keeps hkey) (.inr fun _ _ h => h) expiring_fresh ?_
  refine (hrevoked.and htimely).mono fun σ cue hcue => ?_
  cases cue with
  | start => trivial
  | call => exact fun c k hthread => ⟨hcue.1, fun h => hcue.2 h c k hthread⟩
  | stop i => trivial
  | env x => trivial

/-- **The bound**, for a credential the store refuses from `r` on. No `Authenticate` that starts at or after the bound
succeeds; and if every session is opened early enough, neither does a `Current`. -/
theorem revocation_bound (hkey : ∀ other, cacheKey E other = cacheKey E encoded → other = encoded)
    (hrevoked : RunMeets E clock store ttl (Revoking E encoded Of r) cues) :
    (∀ i started auth, (runFrom E clock store ttl cues).returned i = some (.authenticated encoded started auth) →
      started < r + deviceRevalidationBound) ∧
    (RunMeets E clock store ttl (InTime Of r) cues →
      ∀ i id started s, (runFrom E clock store ttl cues).returned i = some (.current id started true) →
        (runFrom E clock store ttl cues).state.sessions[id]? = some s → Of s.auth →
        started < r + deviceRevalidationBound) := by
  constructor
  · intro i started auth hdone
    have hgood : (process E).Good (revocation E encoded Of r False) _ _ :=
      run_good hkey hrevoked (System.meets_of_forall (fun _ _ => nofun) _ _)
    exact hgood.ended (Config.returned_eq_some.1 hdone) rfl
  · intro htimely i id started s hdone hs hof
    have hgood : (process E).Good (revocation E encoded Of r True) _ _ :=
      run_good hkey hrevoked (htimely.mono fun _ _ h _ => h)
    obtain ⟨s', hs', hbound⟩ := hgood.ended (Config.returned_eq_some.1 hdone) trivial
    obtain rfl : s' = s := Option.some.inj (hs'.symm.trans hs)
    exact hbound hof

end

/-! ## One credential -/

/-- An environment in which the secret of `l.s` is 32 zeros. -/
def plain : Env := ⟨id, fun text => text == "l" || text == "p",
  fun text => if text == "s" then some (List.replicate 32 0) else none, fun _ => "s"⟩

theorem plain_cacheKey {text text' : String} (h : cacheKey plain text = cacheKey plain text') : text = text' := by
  have hdata : text.toUTF8.data = text'.toUTF8.data := Array.toList_inj.1 h
  exact String.toByteArray_inj.1 (ByteArray.ext hdata)

/-- The store with the credential, active or not. -/
def credentialStore (active : Bool) : DeviceAuthStore :=
  some ⟨[("l", ⟨List.replicate 32 0, "p", 1, active⟩)], by simp⟩

def device : AuthenticatedDevice := ⟨"p", "l", 1⟩

/-- The credential is revoked when its row is not active from the instant on. -/
theorem revokedAt_device (h : w.store = credentialStore false ∨ w.store = credentialStore true ∧ w.clock < r) :
    RevokedAt plain "l.s" (· = device) r w := by
  have hrefused : ∀ auth, authenticateDevice plain (credentialStore false) "l.s" ≠ .ok auth := by
    intro auth
    have hanswer : authenticateDevice plain (credentialStore false) "l.s" = .error .unauthenticated := by decide +kernel
    simp [hanswer]
  rcases h with hstore | ⟨hstore, hclock⟩
  · refine ⟨fun auth h => ?_, fun _ auth h => ?_, ?_⟩
    · exact absurd (hstore ▸ h) (hrefused auth)
    · exact hrefused auth (hstore ▸ h)
    · rintro _ _ rfl
      rw [hstore]
      decide +kernel
  · refine ⟨fun auth h => ?_, fun h => absurd h (by omega), fun h => absurd h (by omega)⟩
    have hanswer : authenticateDevice plain (credentialStore true) "l.s" = .ok device := by decide +kernel
    rw [hstore, hanswer] at h
    exact (Except.ok.inj h).symm

/-- A caller that makes so many steps. -/
def steps {ι : Type} (i : ι) (n : Nat) : List (Cue ι Request Unit Move) := List.replicate n (.call i ())

/-- The store of a world is one of the two, and the active one before the instant only. -/
def revokedBefore (r : Int) (w : World) : Bool :=
  w.store.map Table.rows == (credentialStore false).map Table.rows ||
    (w.store.map Table.rows == (credentialStore true).map Table.rows && w.clock < r)

theorem rows_inj {store store' : DeviceAuthStore} (h : store.map Table.rows = store'.map Table.rows) :
    store = store' := by
  refine Option.map_injective ?_ h
  rintro ⟨rows, _⟩ ⟨rows', _⟩ rfl
  rfl

theorem revoking_of {σ : Running Nat} (h : revokedBefore r σ.state = true) :
    Revoking plain "l.s" (· = device) r σ cue := by
  unfold revokedBefore at h
  simp only [Bool.or_eq_true, beq_iff_eq, Bool.and_eq_true, decide_eq_true_eq] at h
  have hrevoked := revokedAt_device (h.imp rows_inj fun h => ⟨rows_inj h.1, h.2⟩)
  cases cue with
  | call => exact hrevoked
  | start => trivial
  | stop i => trivial
  | env x => trivial

/-- If the step opens a session, it does so early enough. -/
def opensInTime (r : Int) (σ : Running Nat) : Cue Nat Request Unit Move → Bool
  | .call i _ =>
    match σ.thread i with
    | some (.call (.newSession _ now) _) => now + σ.state.cache.ttl ≤ r + deviceRevalidationBound
    | _ => true
  | _ => true

theorem inTime_of {σ : Running Nat} (h : opensInTime r σ cue = true) : InTime (· = device) r σ cue := by
  cases cue with
  | call =>
    intro c k hthread
    unfold opensInTime at h
    dsimp only at h
    rw [hthread] at h
    cases c with
    | newSession => exact fun _ => of_decide_eq_true h
    | _ => trivial
  | start => trivial
  | stop i => trivial
  | env x => trivial

/-- The call, for so many steps. -/
def called (i : Nat) (request : Request) (n : Nat) : List (Cue Nat Request Unit Move) := .start i request :: steps i n

/-- The credential is revoked, and time passes. -/
def revoked : List (Cue Nat Request Unit Move) := [.env (.commit (credentialStore false)), .env (.tick 1900000000)]

/-- The credential is accepted and cached; it is revoked, and a session is opened on the cached authentication. -/
def sessionOnCached : List (Cue Nat Request Unit Move) :=
  List.flatten [called 0 (.authenticate "l.s") 5, revoked, called 1 (.openSession "l.s") 4,
    [.env (.tick 1100000000)], called 2 (.current 0) 3]

/-- The same, with the session opened before the credential is revoked. -/
def sessionInTime : List (Cue Nat Request Unit Move) :=
  List.flatten [called 0 (.authenticate "l.s") 5, called 1 (.openSession "l.s") 4, revoked, called 2 (.current 0) 3]

/-- The runs of a process that starts with the active credential. -/
abbrev credentialRun : List (Cue Nat Request Unit Move) → Running Nat :=
  runFrom plain 0 (credentialStore true) deviceRevalidationBound

/-- A session opened in time is still current after the revocation, and not beyond the bound. -/
theorem revocation_bound_device :
    (credentialRun sessionInTime).returned 2 = some (.current 0 1900000000 true) ∧
      (1900000000 : Int) < 1 + deviceRevalidationBound := by
  have hreturned : (credentialRun sessionInTime).returned 2 = some (.current 0 1900000000 true) := by decide +kernel
  have hauth : ((credentialRun sessionInTime).state.sessions[0]?).map (·.auth) = some device := by decide +kernel
  obtain ⟨s, hs, hdevice⟩ := Option.map_eq_some_iff.1 hauth
  have hrevoked : RunMeets plain 0 (credentialStore true) deviceRevalidationBound
      (fun σ _ => revokedBefore 1 σ.state = true) sessionInTime := by decide +kernel
  have hopens : RunMeets plain 0 (credentialStore true) deviceRevalidationBound
      (fun σ cue => opensInTime 1 σ cue = true) sessionInTime := by decide +kernel
  have hbound := (revocation_bound (fun _ => plain_cacheKey) (hrevoked.mono fun _ _ => revoking_of)).2
    (hopens.mono fun _ _ => inTime_of) 2 0 1900000000 s hreturned hs hdevice
  exact ⟨hreturned, hbound⟩

/-- A session opened on the cached authentication of a revoked credential is current beyond the bound. -/
theorem session_outlives_bound :
    RunMeets plain 0 (credentialStore true) deviceRevalidationBound (Revoking plain "l.s" (· = device) 1)
      sessionOnCached ∧
    (credentialRun sessionOnCached).returned 2 = some (.current 0 3000000000 true) ∧
    ((credentialRun sessionOnCached).state.sessions[0]?).map (·.auth) = some device ∧
    1 + deviceRevalidationBound ≤ 3000000000 := by
  have hrevoked : RunMeets plain 0 (credentialStore true) deviceRevalidationBound
      (fun σ _ => revokedBefore 1 σ.state = true) sessionOnCached := by decide +kernel
  exact ⟨hrevoked.mono fun _ _ => revoking_of, by decide +kernel, by decide +kernel, by decide⟩

end Punaro.Postgres
