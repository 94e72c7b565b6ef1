import Mathlib.Algebra.Order.Ring.Int
import Mathlib.Data.List.Basic
import Mathlib.Data.List.Induction
import PenPlot.Program.Basic
import PenPlot.Proofs.Exact
import PenPlot.Proofs.Run

/-!
# The picture of a program

What a program leaves on a canvas can be told without running it. Pen, filling and origin of a command are
those that the last command before it has set (`State.lookBack`), they give the command at most one
element (`Command.element?`), and the picture is made of the elements behind the last clear (`picture`).
All of it is in whole numbers without a bound.

A run draws just this picture, also one that stops at a line that is no command. `Session.Matches` is the
invariant behind it: state, offset and elements of the session are those of the commands so far.
-/

namespace PenPlot

open Svg (Element Pixel Canvas)

/-! ## Looking back -/

namespace Command

def pen? : Command → Option Pen
  | .pen color => some color
  | _ => none

def filling? : Command → Option Bool
  | .fill on => some on
  | _ => none

/-- A reset puts the origin into the corner. -/
def origin? : Command → Option Point
  | .position origin => some origin
  | .reset => some .zero
  | _ => none

/-- The element that a command leaves on a canvas, if any, in the state that it finds. -/
def element? (command : Command) (state : State) : Option Element :=
  match command with
  | .draw target =>
    if state.filling then some (.rect (.fill state.pen.color) (.around state.origin target) 1 1)
    else some (.line state.pen.color (.ofPoint state.origin) (.around state.origin target))
  | .rectangle size =>
    if 0 < size.width.toInt ∧ 0 < size.height.toInt then
      some (.rect state.paint (.ofPoint state.origin) size.width.toInt size.height.toInt)
    else none
  | .circle radius =>
    -- a center `d / 2` from the origin; halves are held twice as large
    let d := min (2 * radius.toInt) (2 ^ 31 - 1)
    if 0 < radius.toInt then
      some (.ellipse state.paint ⟨2 * state.origin.x.toInt + d⟩ ⟨2 * state.origin.y.toInt + d⟩ ⟨d⟩ ⟨d⟩)
    else none
  | .triangle a b c =>
    some (.polygon state.paint
      [.around state.origin a, .around state.origin b, .around state.origin c])
  | .position _ | .pen _ | .clear | .reset | .fill _ => none

end Command

/-- The state behind `history`: each part as the last command that sets it has it, and otherwise as it was
at first. -/
def State.behind (initial : State) (history : List Command) : State where
  pen := (history.filterMap Command.pen?).getLast?.getD initial.pen
  filling := (history.filterMap Command.filling?).getLast?.getD initial.filling
  origin := (history.filterMap Command.origin?).getLast?.getD initial.origin

/-- The state behind `history` for one who begins in a fresh state. -/
def State.lookBack (history : List Command) : State :=
  fresh.behind history

/-- The elements of the commands that no clear follows, in order, each as the commands before it have it. -/
def picture (commands : List Command) : List Element :=
  commands.zipIdx.filterMap fun (command, i) =>
    if .clear ∈ commands.drop i then none else command.element? (.lookBack (commands.take i))

/-! ## One more command -/

theorem State.lookBack_nil : lookBack [] = fresh := rfl

theorem State.behind_concat (initial : State) (history : List Command) (command : Command) :
    initial.behind (history ++ [command]) = command.next (initial.behind history) := by
  cases command <;> simp [behind, Command.next, Command.pen?, Command.filling?, Command.origin?]

theorem State.lookBack_concat (history : List Command) (command : Command) :
    lookBack (history ++ [command]) = command.next (lookBack history) :=
  behind_concat .fresh history command

theorem picture_nil : picture [] = [] := rfl

theorem picture_concat (history : List Command) (command : Command) :
    picture (history ++ [command]) =
      if command = .clear then []
      else picture history ++ (command.element? (.lookBack history)).toList := by
  unfold picture
  by_cases hclear : command = .clear
  · -- the clear comes behind every command
    rw [if_pos hclear, List.filterMap_eq_nil_iff]
    rintro ⟨c, i⟩ hmem
    have hi : i < (history ++ [command]).length := by
      simpa using (List.mem_zipIdx hmem).2.1
    have hlast : Command.clear ∈ (history ++ [command]).drop i := by
      rw [List.drop_append_of_le_length (by simp at hi; omega), hclear]
      simp
    exact if_pos hlast
  · rw [if_neg hclear, List.zipIdx_append, List.filterMap_append]
    congr 1
    · refine List.filterMap_congr ?_
      rintro ⟨c, i⟩ hmem
      have hi : i < history.length := by simpa using (List.mem_zipIdx hmem).2.1
      have hdrop : .clear ∈ (history ++ [command]).drop i ↔ .clear ∈ history.drop i := by
        rw [List.drop_append_of_le_length (Nat.le_of_lt hi), List.mem_append, List.mem_singleton]
        exact or_iff_left (Ne.symm hclear)
      simp only [hdrop, List.take_append_of_le_length (Nat.le_of_lt hi)]
    · cases h : command.element? (.lookBack history) <;> simp [h, Ne.symm hclear]

/-- Clearing drops the circle, and keeps origin and filling. -/
example : picture [.fill true, .position ⟨5, 5⟩, .circle 3, .clear, .draw ⟨1, 2⟩] =
    [.rect (.fill Pen.black.color) ⟨6, 7⟩ 1 1] := by
  decide

/-! ## The run -/

namespace Session

/-- The session is where the commands of `history` leave a canvas that starts without elements. -/
structure Matches (session : Session Canvas) (history : List Command) : Prop where
  state : session.state = .lookBack history
  offset : session.surface.offset = .ofPoint session.state.origin
  elements : session.surface.elements.toList = picture history

/-- A command takes the offset of the canvas along with the origin of the state. -/
theorem offset_apply {session : Session Canvas}
    (h : session.surface.offset = .ofPoint session.state.origin) (command : Command) :
    (session.apply command).surface.offset = .ofPoint (command.next session.state).origin := by
  cases command with
  | position origin =>
    show Pixel.shift .zero origin = .ofPoint origin
    exact Pixel.zero_shift origin
  | reset => rfl
  | draw target =>
    simp only [apply, Command.calls, Command.next]
    split <;> simpa [Surface.draw, Canvas.draw] using h
  | pen | fill | clear => simpa [apply, Command.calls, Command.next, Surface.draw, Canvas.draw] using h
  | rectangle | circle | triangle =>
    simpa [apply, Command.calls, Command.next, Surface.draw, Canvas.draw] using h

/-- A circle is inscribed in the square of its diameter, with an exact center. -/
theorem element?_circle (radius : Int32) (state : State) :
    Command.element? (.circle radius) state =
      let d := (diameter radius).toInt
      if 0 < d ∧ 0 < d then some (.inscribed state.paint (.ofPoint state.origin) d d) else none := by
  have hd := toInt_diameter radius
  have hr := radius.toInt_lt
  have hx : (Pixel.ofPoint state.origin).x.natAbs < 2 ^ 51 := by
    have hlo := state.origin.x.le_toInt
    have hhi := state.origin.x.toInt_lt
    simp only [Pixel.ofPoint]
    omega
  have hy : (Pixel.ofPoint state.origin).y.natAbs < 2 ^ 51 := by
    have hlo := state.origin.y.le_toInt
    have hhi := state.origin.y.toInt_lt
    simp only [Pixel.ofPoint]
    omega
  have hsmall : (diameter radius).toInt.natAbs < 2 ^ 51 := by omega
  dsimp only [Command.element?]
  by_cases hpos : 0 < radius.toInt
  · have heq : min (2 * radius.toInt) (2 ^ 31 - 1) = (diameter radius).toInt := by omega
    rw [if_pos hpos, if_pos (by omega), heq, Element.inscribed_of_lt _ hx hy hsmall hsmall]
    rfl
  · rw [if_neg hpos, if_neg (by omega)]

theorem elements_apply {session : Session Canvas}
    (h : session.surface.offset = .ofPoint session.state.origin) (command : Command) :
    (session.apply command).surface.elements.toList =
      if command = .clear then []
      else session.surface.elements.toList ++ (command.element? session.state).toList := by
  obtain ⟨state, canvas⟩ := session
  dsimp only at h ⊢
  cases command with
  | position | pen | reset | fill =>
    simp [apply, Command.calls, Command.element?, Surface.draw, Canvas.draw]
  | clear => simp [apply, Command.calls, Surface.draw, Canvas.draw]
  | draw target =>
    by_cases hf : state.filling
    · simp [apply, Command.calls, Command.element?, Surface.draw, Canvas.draw, hf, h, State.paint,
        Pixel.shift_ofPoint, Canvas.elements_addBox, Size.square]
    · simp [apply, Command.calls, Command.element?, Surface.draw, Canvas.draw, hf, h,
        Pixel.shift_ofPoint]
  | triangle a b c =>
    simp [apply, Command.calls, Command.element?, Surface.draw, Canvas.draw, h, Pixel.shift_ofPoint]
  | rectangle size =>
    simp [apply, Command.calls, Command.element?, Surface.draw, Canvas.draw, h,
      Pixel.shift_ofPoint, Canvas.elements_addBox]
  | circle radius =>
    rw [if_neg (by simp), element?_circle]
    simp [apply, Command.calls, Surface.draw, Canvas.draw, h, Pixel.shift_ofPoint,
      Canvas.elements_addBox, Size.square]

theorem Matches.apply {session : Session Canvas} {history : List Command}
    (h : session.Matches history) (command : Command) :
    (session.apply command).Matches (history ++ [command]) where
  state := by rw [State.lookBack_concat, ← h.state]; rfl
  offset := offset_apply h.offset command
  elements := by rw [elements_apply h.offset, picture_concat, h.elements, h.state]

theorem matches_new (options : Svg.Options) : (new (Canvas.new options)).Matches [] where
  state := State.lookBack_nil.symm
  offset := rfl
  elements := picture_nil.symm

theorem matches_applyAll (options : Svg.Options) (commands : List Command) :
    ((new (Canvas.new options)).applyAll commands).Matches commands := by
  induction commands using List.reverseRecOn with
  | nil => exact matches_new options
  | append_singleton commands command ih =>
    rw [applyAll_concat]
    exact ih.apply command

end Session

/-- What a run leaves on a new canvas, whether it ends in an error or not. -/
theorem elements_run (source : String) (options : Svg.Options) :
    ((Program.ofSource source).run (Canvas.new options)).2.elements.toList =
      picture (leadingCommands (Program.ofSource source).lines) := by
  rw [Program.snd_run]
  exact (Session.matches_applyAll options _).elements

end PenPlot
