import Punaro.Proof.Published

/-!
# The user's text

A managed file that is written again has the same user region as before. This rests on
the first opening marker of the file being the one that `composeManaged` wrote: the
published text has none, by `Validate`, but nothing keeps an addendum from having one.
-/

namespace Punaro.Fleet

open Search

variable {published published' addendum addendum' claude claude' : Bytes}

/-- The region of the user as `SplitUser` finds it. -/
def userOf (content : Bytes) : Option Bytes := (splitUser content).map Prod.snd

theorem userOf_rehydrate (hpublished : Free published) (haddendum : Free addendum) (existing : Bytes) :
    userOf (rehydrate published addendum existing) = some (pad (carriedUser existing)) :=
  splitUser_composeManaged hpublished haddendum _

theorem userOf_rehydrate_rehydrate (hpublished : Free published) (haddendum : Free addendum)
    (hpublished' : Free published') (haddendum' : Free addendum') (existing : Bytes) :
    userOf (rehydrate published' addendum' (rehydrate published addendum existing)) =
      some (pad (carriedUser existing)) := by
  rw [userOf_rehydrate hpublished' haddendum', rehydrate, carriedUser_composeManaged hpublished haddendum, pad_pad]

theorem rehydrate_rehydrate (hpublished : Free published) (haddendum : Free addendum) (existing : Bytes) :
    rehydrate published addendum (rehydrate published addendum existing) =
      rehydrate published addendum existing := by
  rw [rehydrate, rehydrate, carriedUser_composeManaged hpublished haddendum, composeManaged_pad]

end Punaro.Fleet
