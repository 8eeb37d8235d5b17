import Mathlib.Tactic.Common
import OefCore.Karma.KarmaPolicyBasic

/-
  The karma policies a core runs with, behind the interface
  that accounts use.

  Main declarations:
    * `KarmaPolicy`
    * `KarmaAccount.perform`, `KarmaAccount.upgrade`
    * `KarmaPolicy.NeverRejects`
-/

namespace OefCore

------------------------------------------------------------
-- Policies
------------------------------------------------------------

/- `KarmaPolicyNone`, or a policy that is configured. -/
inductive KarmaPolicy where
  | none
  | basic (policy : KarmaPolicyBasic)

namespace KarmaPolicy

def getAccount
    (policy : KarmaPolicy)
    (pubkey ip : String) : KarmaAccount × KarmaPolicy :=
  match policy with
  | .none => (.mkAccount 0 "NO_KARMA_POLICY", .none)
  | .basic policy =>
      let found := policy.getAccount pubkey ip
      (found.1, .basic found.2)

def upgrade
    (policy : KarmaPolicy)
    (account : KarmaAccount)
    (pubkey ip : String) : KarmaAccount × KarmaPolicy :=
  match policy with
  | .none => (account, .none)
  | .basic policy =>
      let found := policy.getAccount pubkey ip
      (found.1, .basic found.2)

def perform
    (policy : KarmaPolicy)
    (identifier : KarmaAccount)
    (action : String)
    (force : Bool) : Except Exception Bool × KarmaPolicy :=
  match policy with
  | .none => (.ok true, .none)
  | .basic policy =>
      let performed := policy.perform identifier action force
      (performed.1, .basic performed.2)

/- Accounts that a policy gives out know the policy. -/
theorem getAccount_hasPolicy
    (policy : KarmaPolicy)
    (pubkey ip : String) :
    (policy.getAccount pubkey ip).1.hasPolicy = true := by
  cases policy with
  | none => rfl
  | basic policy =>
      unfold getAccount KarmaPolicyBasic.getAccount
      simp only
      split
      · rfl
      · split <;> rfl

theorem upgrade_hasPolicy
    (policy : KarmaPolicy)
    {account : KarmaAccount}
    (hAccount : account.hasPolicy = true)
    (pubkey ip : String) :
    (policy.upgrade account pubkey ip).1.hasPolicy = true := by
  cases policy with
  | none => exact hAccount
  | basic policy =>
      exact getAccount_hasPolicy (.basic policy) pubkey ip

end KarmaPolicy

------------------------------------------------------------
-- Accounts
------------------------------------------------------------

namespace KarmaAccount

/- What `force` says is not passed on to the policy. -/
def perform
    (account : KarmaAccount)
    (policy : KarmaPolicy)
    (action : String) : Except Exception Bool × KarmaPolicy :=
  if account.hasPolicy then
    policy.perform account action false
  else
    (.ok false, policy)

end KarmaAccount

------------------------------------------------------------
-- Policies That Never Reject
------------------------------------------------------------

namespace KarmaPolicy

/- The calls that change what a policy keeps. -/
inductive Call where
  | getAccount (pubkey ip : String)
  | upgrade (account : KarmaAccount) (pubkey ip : String)
  | perform (identifier : KarmaAccount) (action : String)

def after
    (policy : KarmaPolicy)
    (calls : List Call) : KarmaPolicy :=
  calls.foldl
    (fun policy call =>
      match call with
      | .getAccount pubkey ip => (policy.getAccount pubkey ip).2
      | .upgrade account pubkey ip =>
          (policy.upgrade account pubkey ip).2
      | .perform identifier action =>
          (policy.perform identifier action false).2)
    policy

/- Whatever was asked of the policy, it goes along. -/
def NeverRejects (policy : KarmaPolicy) : Prop :=
  ∀ calls identifier action,
    ∃ granted,
      ((policy.after calls).perform identifier action
        false).1 = .ok granted

theorem neverRejects_none : NeverRejects .none := by
  intro calls identifier action
  have hAfter : after .none calls = .none := by
    induction calls with
    | nil => rfl
    | cons call calls ih =>
        cases call <;> exact ih
  rw [hAfter]
  exact ⟨true, rfl⟩

namespace NeverRejects

variable {policy : KarmaPolicy}

theorem getAccount
    (hNever : policy.NeverRejects)
    (pubkey ip : String) :
    (policy.getAccount pubkey ip).2.NeverRejects :=
  fun calls => hNever (.getAccount pubkey ip :: calls)

theorem upgrade
    (hNever : policy.NeverRejects)
    (account : KarmaAccount)
    (pubkey ip : String) :
    (policy.upgrade account pubkey ip).2.NeverRejects :=
  fun calls => hNever (.upgrade account pubkey ip :: calls)

/- An account's holder is never refused by an exception. -/
theorem perform
    (hNever : policy.NeverRejects)
    (account : KarmaAccount)
    (action : String) :
    ∃ granted policy',
      account.perform policy action = (.ok granted, policy') ∧
        policy'.NeverRejects := by
  unfold KarmaAccount.perform
  split
  · rcases hNever [] account action with ⟨granted, hGranted⟩
    refine ⟨granted, (policy.perform account action false).2,
      Prod.ext hGranted rfl, ?_⟩
    exact fun calls => hNever (.perform account action :: calls)
  · exact ⟨false, policy, rfl, hNever⟩

end NeverRejects

end KarmaPolicy

end OefCore
