import SqlScribe.Term
/-! # Windows

A window is built on a function call, from the window that the call has already. -/

namespace SqlScribe

/-- A function call with a window that is being built. -/
structure Windowed where
  /-- The function. -/
  function : Term
  /-- The window. -/
  window : Window

/-- A window for a term; it starts from the window that a call has. -/
def Term.over (t : Term) : Windowed :=
  match t.expr with
  | .call c => ⟨t, c.window.getD ⟨[], [], none⟩⟩
  | _ => ⟨t, ⟨[], [], none⟩⟩

namespace Frame

/-- Refuses a frame that starts where no frame can, or after it ends. -/
def check (f : Frame) : Except QueryError Unit :=
  match f.stop with
  | none => if f.startsUnbounded then .error (.grouping .frameWithoutStart) else .ok ()
  | some stop =>
    if isReversed f.start stop then .error (.grouping (.reversedFrame f.start stop)) else .ok ()

end Frame

namespace Windowed

/-- The window with more terms to partition by. -/
def partitionBy (w : Windowed) (terms : List Term) : Windowed :=
  { w with window.partitionBy := w.window.partitionBy ++ terms }

/-- The window with one more term to order by. -/
def orderBy (w : Windowed) (term : Term) (order : Option SortOrder) : Windowed :=
  { w with window.orderBy := w.window.orderBy ++ [⟨term, order⟩] }

/-- The window with a frame; it has one at most. -/
def frame (w : Windowed) (f : Frame) : Except QueryError Windowed :=
  match w.window.frame with
  | some _ => .error (.grouping .secondFrame)
  | none => do
    f.check
    return { w with window.frame := some f }

/-- The function call over the window. -/
def build (w : Windowed) : Except QueryError Term :=
  w.function.mapCall .over fun c => .ok { c with window := some w.window }

end Windowed

end SqlScribe
