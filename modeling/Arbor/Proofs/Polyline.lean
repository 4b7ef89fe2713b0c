import Arbor.Proofs.Growth

/-!
# Shoots make a polyline

The segments that a branch reports while it grows have explicit ends, and the segments
of a grown branch are read back from its nodes.  They are the same because every shoot
begins where the one before ends, within one run, from one run to the next, and across
the turns between them.
-/

namespace Arbor

namespace Shoot

/-- The first shoot begins at the point and every other one where the one before ends. -/
def Continue (point : Vec3) : List Shoot → Prop
  | [] => True
  | shoot :: rest => shoot.start = point ∧ Continue shoot.finish.position rest

theorem continue_append {right : List Shoot} (left : List Shoot) :
    (pose : Pose) → Continue pose.position left →
      Continue (pose.after left).position right → Continue pose.position (left ++ right) := by
  induction left with
  | nil =>
      intro pose leftContinue rightContinue
      exact rightContinue
  | cons shoot rest ih =>
      intro pose leftContinue rightContinue
      refine ⟨leftContinue.1, ih shoot.finish leftContinue.2 ?_⟩
      have ends : pose.after (shoot :: rest) = shoot.finish.after rest := by
        rw [Pose.after, Pose.after, List.getLast?_cons]
        cases rest.getLast? <;> rfl
      rwa [ends] at rightContinue

/-- Shoots that continue one another join consecutive nodes. -/
theorem zip_nodes_of_continue (shoots : List Shoot) :
    (point : Vec3) → Continue point shoots →
      (point :: shoots.map fun shoot => shoot.finish.position).zip
          (shoots.map fun shoot => shoot.finish.position) =
        shoots.map fun shoot => (shoot.start, shoot.finish.position) := by
  induction shoots with
  | nil =>
      intro point _
      rfl
  | cons shoot rest ih =>
      intro point continues
      rcases continues with ⟨rfl, later⟩
      rw [List.map_cons, List.zip_cons_cons, ih _ later, List.map_cons]

end Shoot

namespace Conditions

open Shoot

theorem continue_run (conditions : Conditions) (samples : List ShootSample) :
    (pose : Pose) → Continue pose.position (conditions.run pose samples) := by
  induction samples with
  | nil =>
      intro pose
      trivial
  | cons sample rest ih =>
      intro pose
      exact ⟨rfl, ih _⟩

/-- The shoots along a branch continue one another, whatever is drawn. -/
theorem continue_shootsAlong (conditions : Conditions) (text : Word) :
    (pose : Pose) → (draws : Draws) →
      Continue pose.position (conditions.shootsAlong pose text draws).1 := by
  induction text with
  | nil =>
      intro pose draws
      trivial
  | cons symbol rest ih =>
      intro pose draws
      unfold shootsAlong
      cases Command.ofSymbol symbol with
      | turn plane backward =>
          let angle := if backward then -conditions.turnAngle else conditions.turnAngle
          exact ih { pose with heading := pose.heading.turn plane angle } draws
      | ignore => exact ih pose draws
      | grow =>
          simp only [Drawing.bind_apply, Drawing.pure_apply]
          apply continue_append _ { pose with heading := pose.heading.normalizeOr Vec3.up }
          · exact continue_run _ _ _
          · exact ih _ _

end Conditions

namespace Branch

open Shoot

/-- A branch that had no nodes shows the segments that it has reported. -/
theorem segments_extend {branch : Branch} (ungrown : branch.isGrown = false) {start : Vec3}
    {shoots : List Shoot} (continues : Continue start shoots) (radius : Float32) :
    (branch.extend start shoots).segments radius = branch.shootSegments radius shoots := by
  have empty : branch.nodes = [] := by
    simpa [isGrown] using ungrown
  simp only [segments, extend, shootSegments, empty, List.nil_append, List.tail_cons,
    zip_nodes_of_continue shoots start continues, List.zipIdx_map, List.map_map,
    List.length_nil]
  rfl

variable (species : Species) (environment : Environment) (pose : Pose) (branch : Branch)
  (draws : Draws)

/-- After a visit a branch shows what it showed before and what has grown. -/
theorem segments_growOnce :
    (branch.growOnce species environment pose draws).1.branch.segments
        (species.radiusAt branch.creationDepth) =
      branch.segments (species.radiusAt branch.creationDepth) ++
        (branch.growOnce species environment pose draws).1.segments := by
  cases grown : branch.isGrown with
  | true => rw [growOnce_of_isGrown _ _ _ _ _ grown, List.append_nil]
  | false =>
      have before : branch.segments (species.radiusAt branch.creationDepth) = [] := by
        have empty : branch.nodes = [] := by
          simpa [isGrown] using grown
        simp [segments, empty]
      rw [before, List.nil_append, growOnce, grown]
      exact segments_extend grown (Conditions.continue_shootsAlong _ _ _ _) _

end Branch

end Arbor
