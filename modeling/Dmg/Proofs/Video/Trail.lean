import Dmg.Proofs.Video.Place

/-!
# What happens to the video unit, one thing after another

An action can do several things to the unit: a span of time ends any number of
modes.  The trail of a list of actions has them all in their order, each with the
state that it finds.  Whatever is to be said about the unit between two actions is
said about the moments of a trail.
-/

namespace Dmg

namespace Video

/-- The smallest things that happen to the unit. -/
inductive Happening where
  /-- A command is applied. -/
  | command (command : Command)
  /-- The lines are compared and the clock moves on. -/
  | elapse (cycles : Nat)
  /-- The present mode runs out. -/
  | expire

/-- Something that happens, and the state that it finds. -/
structure Moment where
  before : Video
  happening : Happening

/-- The state that a moment leaves behind. -/
def Moment.after (moment : Moment) : Video :=
  match moment.happening with
  | .command command => moment.before.apply command
  | .elapse cycles => (moment.before.elapse cycles).1
  | .expire => moment.before.expire.1

/-- The moments in which a mode runs out, until the clock falls within one. -/
def expiries (video : Video) : List Moment :=
  if video.mode.duration <= video.clock then
    ⟨video, .expire⟩ :: video.expire.1.expiries
  else []
termination_by video.clock
decreasing_by
  have positive := video.mode.duration_pos
  rw [expire_eq]
  change video.clock - video.mode.duration < video.clock
  omega

def moments (video : Video) : Action -> List Moment
  | .command command => [⟨video, .command command⟩]
  | .step cycles =>
      if video.control.isOn then ⟨video, .elapse cycles⟩ :: (video.elapse cycles).1.expiries
      else []

/-- The moments of one action after the other. -/
def trail (video : Video) : List Action -> List Moment
  | [] => []
  | action :: actions => video.moments action ++ (video.act action).trail actions

/-- Each moment finds the state that the one before it has left behind. -/
inductive Follows : Video -> List Moment -> Video -> Prop where
  | done (video : Video) : Follows video [] video
  | next (moment : Moment) {moments : List Moment} {last : Video}
      (rest : Follows moment.after moments last) : Follows moment.before (moment :: moments) last

theorem Follows.append {first middle last : Video} {early late : List Moment}
    (leads : Follows first early middle) (goesOn : Follows middle late last) :
    Follows first (early ++ late) last := by
  induction leads with
  | done video => exact goesOn
  | next moment rest inductionHypothesis => exact next moment (inductionHypothesis goesOn)

/-- A trail can be taken apart at each of its moments. -/
theorem Follows.split {first last : Video} {early late : List Moment} {moment : Moment}
    (leads : Follows first (early ++ moment :: late) last) :
    Follows first early moment.before ∧ Follows moment.after late last := by
  induction early generalizing first with
  | nil =>
      cases leads with
      | next moment rest => exact ⟨done _, rest⟩
  | cons head early inductionHypothesis =>
      cases leads with
      | next head rest =>
          rcases inductionHypothesis rest with ⟨before, after⟩
          exact ⟨next head before, after⟩

theorem follows_expiries (video : Video) : Follows video video.expiries video.expireAll.1 := by
  induction video using expiries.induct with
  | case1 video due inductionHypothesis =>
      rw [expiries, if_pos due, expireAll_of_le due]
      exact Follows.next ⟨video, .expire⟩ inductionHypothesis
  | case2 video within =>
      rw [expiries, if_neg within, expireAll_of_lt (Nat.not_le.mp within)]
      exact Follows.done video

theorem follows_moments (video : Video) (action : Action) :
    Follows video (video.moments action) (video.act action) := by
  cases action with
  | command command => exact Follows.next ⟨video, .command command⟩ (Follows.done _)
  | step cycles =>
      cases on : video.control.isOn with
      | true =>
          rw [moments, if_pos on, act, step_of_on on]
          exact Follows.next ⟨video, .elapse cycles⟩ (follows_expiries _)
      | false =>
          rw [moments, if_neg (Bool.eq_false_iff.mp on), act, step_of_off on]
          exact Follows.done video

/-- A trail leads from the state before the actions to the state behind them. -/
theorem follows_trail (video : Video) (actions : List Action) :
    Follows video (video.trail actions) (video.actAll actions) := by
  induction actions generalizing video with
  | nil => exact Follows.done video
  | cons action actions inductionHypothesis =>
      exact (follows_moments video action).append (inductionHypothesis (video.act action))

end Video

end Dmg
