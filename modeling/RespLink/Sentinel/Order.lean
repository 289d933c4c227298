import RespLink.Config

/-!
# The order of the Sentinels

The Sentinels of a connection are asked from the front.  The one that led to a verified master is
moved there, and the others keep their order.
-/

namespace RespLink

abbrev Sentinels := List Endpoint

namespace Sentinels

/-- those of a configuration in Sentinel mode -/
def ofConfig? (config : Config) : Option Sentinels :=
  if config.sentinelMode then some config.sentinels else none

/-- unchanged if there is no Sentinel of that index -/
def moveToFront (i : Nat) (s : Sentinels) : Sentinels :=
  match s[i]? with
  | some e => e :: s.eraseIdx i
  | none => s

@[simp] theorem moveToFront_zero (s : Sentinels) : s.moveToFront 0 = s := by
  cases s <;> simp [moveToFront]

theorem cons_eraseIdx_perm {s : Sentinels} {i : Nat} {e : Endpoint} (h : s[i]? = some e) :
    (e :: s.eraseIdx i).Perm s := by
  induction s generalizing i with
  | nil => simp at h
  | cons a s ih =>
    cases i with
    | zero => simp_all
    | succ i => exact (List.Perm.swap a e _).trans ((ih (by simpa using h)).cons a)

theorem moveToFront_perm (i : Nat) (s : Sentinels) : (s.moveToFront i).Perm s := by
  unfold moveToFront
  split
  · next e h => exact cons_eraseIdx_perm h
  · exact List.Perm.refl _

@[simp] theorem length_moveToFront (i : Nat) (s : Sentinels) : (s.moveToFront i).length = s.length :=
  (moveToFront_perm i s).length_eq

end Sentinels
end RespLink
