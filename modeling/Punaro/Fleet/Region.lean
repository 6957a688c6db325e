import Mathlib.Data.List.DropRight
import Punaro.Lib.Search

/-!
# The regions of a managed file

A live file under fleet configuration (`internal/fleetconfig/rehydrate.go`) has the
published text, a mark of ownership, the machine's addendum and, between two markers,
the region that belongs to the user.
-/

namespace Punaro.Fleet

open Search

/-- The contents of a file. -/
abbrev Bytes := List UInt8

/-- The bytes of a text of ASCII characters. -/
def ascii (text : String) : Bytes := text.toList.map fun c => UInt8.ofNat c.toNat

def newline : UInt8 := 10

def userStart : Bytes := ascii "<!-- user -->"
def userEnd : Bytes := ascii "<!--/user-->"
def addendumStart : Bytes := ascii "<!-- punaro-addendum -->"
def addendumEnd : Bytes := ascii "<!--/punaro-addendum-->"
def managedMark : Bytes := ascii "<!-- punaro-managed -->"
def trailerStart : Bytes := ascii "<!-- punaro-local-trailer:start -->"
def trailerEnd : Bytes := ascii "<!-- punaro-local-trailer:end -->"

/-- `bytes.TrimRight(text, "\n")`. -/
def trimNewlines (text : Bytes) : Bytes := text.rdropWhile (· == newline)

/-- A part of a file, closed by a newline; nothing if the part is empty. -/
def block (text : Bytes) : Bytes := if text = [] then [] else trimNewlines text ++ [newline]

/-- The user's text as `composeManaged` writes it between the markers. -/
def pad (user : Bytes) : Bytes :=
  (if user ≠ [] ∧ user.head? ≠ some newline then [newline] else []) ++ user ++
    if user = [] ∨ user.getLast? ≠ some newline then [newline] else []

def composeManaged (published addendum user : Bytes) : Bytes :=
  block published ++ managedMark ++ [newline] ++ addendumStart ++ [newline] ++ block addendum ++ addendumEnd ++
    [newline] ++ userStart ++ pad user ++ userEnd ++ [newline]

def isManagedContent (data : Bytes) : Bool := contains managedMark data

/-- What lies between the first opening and the last closing marker, and what comes before. -/
def splitUser (content : Bytes) : Option (Bytes × Bytes) :=
  match index userStart content, lastIndex userEnd content with
  | some start, some stop =>
    if stop < start then none
    else some (trimNewlines (content.take start), (content.take stop).drop (start + userStart.length))
  | _, _ => none

/-- The text of the user that is carried over to the next version of a file. -/
def carriedUser (existing : Bytes) : Bytes :=
  match splitUser existing with
  | some (_, extracted) => extracted
  | none => if isManagedContent existing || contains addendumStart existing then [] else existing

def rehydrate (published addendum existing : Bytes) : Bytes :=
  composeManaged published addendum (carriedUser existing)

/-- `ComposeClaudeFile`: the text of AGENTS.md with both addendums. -/
def composeClaudeFile (agentsPublished agentsAddendum claudeAddendum existing : Bytes) : Bytes :=
  rehydrate agentsPublished (block agentsAddendum ++ block claudeAddendum) existing

/-! ## The user's region -/

/-- The region of the user, up to the padding. -/
def region (content : Bytes) : Option Bytes := (splitUser content).map fun r => pad r.2

section

variable {published addendum user existing text : Bytes}

theorem pad_of_newlines (hhead : user.head? = some newline) (hlast : user.getLast? = some newline) :
    pad user = user := by
  have hne : user ≠ [] := by rintro rfl; cases hhead
  simp [pad, hne, hhead, hlast]

theorem pad_pad (user : Bytes) : pad (pad user) = pad user := by
  apply pad_of_newlines
  · unfold pad
    cases user with
    | nil => simp
    | cons x l => by_cases hx : x = newline <;> simp [hx]
  · unfold pad
    rcases List.eq_nil_or_concat' user with rfl | ⟨l, x, rfl⟩
    · simp
    · by_cases hx : x = newline <;> simp [hx]

/-- The text does not open a region of the user. -/
def Free (text : Bytes) : Prop := ¬userStart <:+: text

instance (text : Bytes) : Decidable (Free text) := inferInstanceAs (Decidable (¬userStart <:+: text))

theorem newline_not_mem_userStart : newline ∉ userStart := by decide +kernel

theorem Free.nil : Free [] := by
  unfold Free
  rw [List.infix_nil]
  decide +kernel

theorem Free.block (h : Free text) : Free (block text) := by
  unfold Fleet.block
  split
  · exact .nil
  · unfold Free
    rw [infix_append_cons newline_not_mem_userStart, List.infix_nil, not_or]
    exact ⟨fun hinside => h (hinside.trans (List.rdropWhile_prefix _ _).isInfix), by decide +kernel⟩

/-- Lines without an opening marker. -/
theorem Free.append_line {rest : Bytes} (h : Free text) (hrest : Free rest) : Free (text ++ newline :: rest) := by
  unfold Free
  rw [infix_append_cons newline_not_mem_userStart, not_or]
  exact ⟨h, hrest⟩

theorem Free.block_append {rest : Bytes} (h : Free text) (hrest : Free rest) : Free (Fleet.block text ++ rest) := by
  unfold Fleet.block
  split
  · exact hrest
  · rw [List.append_assoc, List.singleton_append]
    exact .append_line (fun hinside => h (hinside.trans (List.rdropWhile_prefix _ _).isInfix)) hrest

/-- What was composed is found again. -/
theorem splitUser_composeManaged (hpublished : Free published) (haddendum : Free addendum) (user : Bytes) :
    (splitUser (composeManaged published addendum user)).map Prod.snd = some (pad user) := by
  -- everything before the marker ends with a newline, so that the marker starts a line
  set head := block published ++ (managedMark ++ newline :: (addendumStart ++ newline ::
    (block addendum ++ addendumEnd))) with hhead
  have hfree : Free head := by
    refine .block_append hpublished (.append_line (by decide +kernel) (.append_line (by decide +kernel) ?_))
    exact .block_append haddendum (by decide +kernel)
  have hcontent : composeManaged published addendum user =
      head ++ newline :: (userStart ++ (pad user ++ (userEnd ++ [newline]))) := by
    simp [composeManaged, hhead]
  have hstart := index_line (b := pad user ++ (userEnd ++ [newline])) newline_not_mem_userStart hfree
  have hstop : lastIndex userEnd (composeManaged published addendum user) =
      some (head ++ newline :: (userStart ++ pad user)).length := by
    have hline : lastIndex userEnd ((head ++ newline :: (userStart ++ pad user)) ++ (userEnd ++ [newline])) = _ :=
      lastIndex_line (by decide +kernel) (by decide +kernel)
    rw [hcontent, ← hline]
    simp
  have htake : (composeManaged published addendum user).take (head ++ newline :: (userStart ++ pad user)).length =
      (head ++ newline :: userStart) ++ pad user := by
    have hsplit : composeManaged published addendum user =
        (head ++ newline :: (userStart ++ pad user)) ++ (userEnd ++ [newline]) := by simp [hcontent]
    rw [hsplit, List.take_left]
    simp
  have hindex : index userStart (composeManaged published addendum user) = some (head.length + 1) := hcontent ▸ hstart
  unfold splitUser
  rw [hstop, hindex]
  dsimp only
  rw [if_neg (by simp), htake]
  simp only [Option.map_some, Option.some.injEq]
  exact List.drop_left' (by simp; omega)

/-- So it is carried over to the next version. -/
theorem carriedUser_composeManaged (hpublished : Free published) (haddendum : Free addendum) (user : Bytes) :
    carriedUser (composeManaged published addendum user) = pad user := by
  obtain ⟨⟨before, extracted⟩, hsplit, hextracted⟩ :=
    Option.map_eq_some_iff.1 (splitUser_composeManaged hpublished haddendum user)
  simpa [carriedUser, hsplit] using hextracted

theorem composeManaged_pad (published addendum user : Bytes) :
    composeManaged published addendum (pad user) = composeManaged published addendum user := by
  simp only [composeManaged, pad_pad]

/-- Rewriting a file keeps its region. -/
theorem region_rehydrate {u : Bytes} (hpublished : Free published) (haddendum : Free addendum)
    (h : region existing = some u) : region (rehydrate published addendum existing) = some u := by
  unfold region at h
  obtain ⟨⟨before, extracted⟩, hsplit, rfl⟩ := Option.map_eq_some_iff.1 h
  have hcarried : carriedUser existing = extracted := by simp [carriedUser, hsplit]
  obtain ⟨⟨before', user⟩, hfound, huser⟩ :=
    Option.map_eq_some_iff.1 (splitUser_composeManaged hpublished haddendum extracted)
  rw [rehydrate, hcarried, region, hfound]
  change some (pad user) = some (pad extracted)
  rw [show user = pad extracted from huser, pad_pad]

theorem region_composeClaudeFile {agentsAddendum claudeAddendum u : Bytes} (hpublished : Free published)
    (hagents : Free agentsAddendum) (hclaude : Free claudeAddendum) (h : region existing = some u) :
    region (composeClaudeFile published agentsAddendum claudeAddendum existing) = some u :=
  region_rehydrate hpublished (hagents.block_append hclaude.block) h

end

end Punaro.Fleet
