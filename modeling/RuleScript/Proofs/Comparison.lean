import RuleScript.Proofs.Agreement
import RuleScript.Proofs.Likeness

/-!
# Comparing evaluation in two worlds

A `Comparison` says what is compared: two worlds in which evaluation starts, how
spans are looked at, and whether the second run may be given more depth.

* `Comparison.InStep`: since then both worlds have printed and recorded the same.
* `Comparison.Same`: two runs end with the same value or with faults that look the
  same, in worlds that are in step. The rules for it follow the ways in which the
  evaluator puts processes together.
-/

namespace RuleScript

/-! ### Printing on two sinks -/

namespace Sink

/-- A sink that has taken more bytes. -/
def after (s : Sink) (out : ByteArray) : Sink := ⟨s.limit, s.written ++ out⟩

@[simp]
theorem after_empty (s : Sink) : s.after ByteArray.empty = s := by
  simp [after]

/-- What is printed **in two turns** is printed one behind the other. -/
theorem after_after (s : Sink) (out more : ByteArray) :
    (s.after out).after more = s.after (out ++ more) := by
  simp [after, ByteArray.append_assoc]

/-- What was printed takes **room**. -/
theorem room_after (s : Sink) (out : ByteArray) :
    (s.after out).room = s.room.map (· - out.size) := by
  rw [room, room, after, Option.map_map]
  refine Option.map_congr fun limit _ => ?_
  simp [ByteArray.size_append, Nat.sub_add_eq]

/-- Sinks with equal room take the same of a text. -/
theorem write_eq_after {s t : Sink} (h : s.room = t.room) (text : String) :
    ∃ whole out, s.write text = (whole, s.after out) ∧ t.write text = (whole, t.after out) := by
  rw [write, write, ← h]
  cases s.room with
  | none => exact ⟨_, _, rfl, rfl⟩
  | some room => exact ⟨_, _, rfl, rfl⟩

end Sink

/-! ### Worlds in step -/

/-- Two runs to be compared. -/
structure Comparison where
  /-- how spans are looked at -/
  view : View
  /-- the world in which the first run began -/
  left : World
  /-- the world in which the second run began -/
  right : World
  /-- whether the second run may be given more depth than the first -/
  ahead : Prop

namespace Comparison

variable {c : Comparison} {w w' : World}

/-- Worlds **in step**: since the start the same was printed and the same was
recorded in both, and there is equal room for more. -/
structure InStep (c : Comparison) (w w' : World) : Prop where
  room : w.sink.room = w'.sink.room
  printed : ∃ out, w.sink = c.left.sink.after out ∧ w'.sink = c.right.sink.after out
  recorded : ∃ es es', w.events = c.left.events ++ es ∧ w'.events = c.right.events ++ es' ∧
    es.map (Event.seen c.view) = es'.map (Event.seen c.view)

namespace InStep

/-- The worlds at the start are in step if there is equal room in both. -/
theorem start (h : c.left.sink.room = c.right.sink.room) : c.InStep c.left c.right :=
  ⟨h, ⟨.empty, by simp, by simp⟩, #[], #[], by simp, by simp, rfl⟩

/-- The stores are no matter. -/
theorem store (h : c.InStep w w') (s s' : Store) :
    c.InStep ⟨s, w.sink, w.events⟩ ⟨s', w'.sink, w'.events⟩ :=
  ⟨h.room, h.printed, h.recorded⟩

/-- Worlds stay in step if events are **recorded** that look the same. -/
theorem record (h : c.InStep w w') {e e' : Event} (he : e.seen c.view = e'.seen c.view) :
    c.InStep ⟨w.store, w.sink, w.events.push e⟩ ⟨w'.store, w'.sink, w'.events.push e'⟩ := by
  obtain ⟨es, es', hes, hes', heq⟩ := h.recorded
  refine ⟨h.room, h.printed, es.push e, es'.push e', ?_, ?_, ?_⟩
  · rw [hes, Array.append_push]
  · rw [hes', Array.append_push]
  · rw [Array.map_push, Array.map_push, heq, he]

/-- Worlds stay in step if **the same is printed**. -/
theorem print (h : c.InStep w w') (out : ByteArray) :
    c.InStep ⟨w.store, w.sink.after out, w.events⟩ ⟨w'.store, w'.sink.after out, w'.events⟩ := by
  obtain ⟨before, hb, hb'⟩ := h.printed
  refine ⟨?_, ⟨before ++ out, ?_, ?_⟩, h.recorded⟩
  · rw [Sink.room_after, Sink.room_after, h.room]
  · rw [hb, Sink.after_after]
  · rw [hb', Sink.after_after]

end InStep

/-! ### Runs that end the same -/

/-- Runs that end **the same**: with the same value, or with faults that look the
same, and in worlds that are in step. -/
abbrev Same (c : Comparison) {α : Type} :
    Outcome Fault α × World → Outcome Fault α × World → Prop :=
  Agree c.ahead c.InStep (fun e w e' w' => e.seen c.view = e'.seen c.view ∧ c.InStep w w') Eq

open Eval (Confined)

namespace Same

variable {α β : Type} {x y : Eval α} {f g : α → Eval β} {i j : ScopeId}

theorem pure (h : c.InStep w w') (a : α) :
    c.Same ((Pure.pure a : Eval α).run w) ((Pure.pure a : Eval α).run w') :=
  .done rfl h

/-- Runs end the same if they **fail** with faults that look the same. -/
theorem fail (h : c.InStep w w') {e e' : Fault} (he : e.seen c.view = e'.seen c.view) :
    c.Same ((Process.fail e : Eval α).run w) ((Process.fail e' : Eval α).run w') :=
  .failed ⟨he, h⟩

/-- What operators answer ends the same if their **faults look the same**. -/
theorem ofExcept (h : c.InStep w w') {r r' : Except Fault α}
    (hr : r.mapError (Fault.seen c.view) = r'.mapError (Fault.seen c.view)) :
    c.Same ((Process.ofExcept r : Eval α).run w) ((Process.ofExcept r' : Eval α).run w') := by
  cases r with
  | error e =>
    cases r' with
    | error e' => exact fail h (Except.error.inj hr)
    | ok a' => cases hr
  | ok a =>
    cases r' with
    | error e' => cases hr
    | ok a' =>
      obtain rfl := Except.ok.inj hr
      exact pure h a

/-- Runs that are **put together** end the same if their parts do, from worlds in step. -/
theorem bind_run (h : c.Same (x.run w) (y.run w'))
    (hf : ∀ a u u', x.run w = (.done a, u) → y.run w' = (.done a, u') → c.InStep u u' →
      c.Same ((f a).run u) ((g a).run u')) :
    c.Same ((x >>= f).run w) ((y >>= g).run w') := by
  refine Agree.bind h fun a b u u' hx hy hab hu => ?_
  subst hab
  exact hf a u u' hx hy hu

/-- After processes that declare nothing in the scopes that were there, the
stores have grown. -/
theorem bind_grows (hx : Confined none x) (hy : Confined none y) (h : c.Same (x.run w) (y.run w'))
    (hf : ∀ a u u', w.store.Grows none u.store → w'.store.Grows none u'.store → c.InStep u u' →
      c.Same ((f a).run u) ((g a).run u')) :
    c.Same ((x >>= f).run w) ((y >>= g).run w') := by
  refine bind_run h fun a u u' hxu hyu hu => ?_
  have hgrows := hx w
  have hgrows' := hy w'
  rw [hxu] at hgrows
  rw [hyu] at hgrows'
  exact hf a u u' hgrows hgrows' hu

/-- Scopes that are alike still are after processes that declare nothing in the
scopes that were there. -/
theorem bind (hx : Confined none x) (hy : Confined none y)
    (hs : w.store.Alike c.view w'.store i j) (h : c.Same (x.run w) (y.run w'))
    (hf : ∀ a u u', u.store.Alike c.view u'.store i j → c.InStep u u' →
      c.Same ((f a).run u) ((g a).run u')) :
    c.Same ((x >>= f).run w) ((y >>= g).run w') :=
  bind_grows hx hy h fun a u u' hu hu' hin => hf a u u' (hs.of_confined hu hu') hin

theorem store_bind {f g : Store → Eval β}
    (hf : c.Same ((f w.store).run w) ((g w'.store).run w')) :
    c.Same ((Eval.store >>= f).run w) ((Eval.store >>= g).run w') :=
  hf

/-- Events that look the same are **recorded** on both sides. -/
theorem record_bind {f g : Unit → Eval β} (hw : c.InStep w w') {e e' : Event}
    (he : e.seen c.view = e'.seen c.view)
    (hf : c.InStep ⟨w.store, w.sink, w.events.push e⟩ ⟨w'.store, w'.sink, w'.events.push e'⟩ →
      c.Same ((f ()).run ⟨w.store, w.sink, w.events.push e⟩)
        ((g ()).run ⟨w'.store, w'.sink, w'.events.push e'⟩)) :
    c.Same ((Eval.record e >>= f).run w) ((Eval.record e' >>= g).run w') :=
  hf (hw.record he)

theorem setVariable_bind {f g : Unit → Eval β} {name : String} {value : Value}
    (hw : c.InStep w w')
    (hf : c.InStep ⟨w.store.setVariable i name value, w.sink, w.events⟩
        ⟨w'.store.setVariable j name value, w'.sink, w'.events⟩ →
      c.Same ((f ()).run ⟨w.store.setVariable i name value, w.sink, w.events⟩)
        ((g ()).run ⟨w'.store.setVariable j name value, w'.sink, w'.events⟩)) :
    c.Same ((Eval.setVariable i name value >>= f).run w)
      ((Eval.setVariable j name value >>= g).run w') :=
  hf (hw.store _ _)

/-- A scope is added inside scopes that are alike: these stay alike, and the new
scopes are alike too. -/
theorem addScope_bind {f g : ScopeId → Eval β} (hw : c.InStep w w')
    (hs : w.store.Alike c.view w'.store i j)
    (hf : ∀ a b u u', i < a → j < b → u.store.Alike c.view u'.store i j →
      u.store.Alike c.view u'.store a b → c.InStep u u' →
      c.Same ((f a).run u) ((g b).run u')) :
    c.Same ((Eval.addScope (some i) >>= f).run w) ((Eval.addScope (some j) >>= g).run w') := by
  obtain ⟨hi, hj⟩ := hs.lt_size
  exact hf _ _ _ _ hi hj (hs.of_confined (.of_add _) (.of_add _)) hs.add (hw.store _ _)

/-- A root is added: the new roots are alike. -/
theorem addRoot_bind {f g : ScopeId → Eval β} (hw : c.InStep w w')
    (hf : ∀ a b u u', u.store.Alike c.view u'.store a b → c.InStep u u' →
      c.Same ((f a).run u) ((g b).run u')) :
    c.Same ((Eval.addScope none >>= f).run w) ((Eval.addScope none >>= g).run w') :=
  hf _ _ _ _ (.addRoot _ _) (hw.store _ _)

/-- **Builtins** end the same, for spans that look the same. -/
theorem callBuiltin (hw : c.InStep w w') (b : Builtin) (args : List Value) {s s' : Span}
    (h : c.view.span s = c.view.span s') :
    c.Same ((Eval.callBuiltin b args s).run w) ((Eval.callBuiltin b args s').run w') := by
  refine record_bind hw rfl fun hw => ?_
  cases b with
  | print =>
    dsimp only [Builtin.call]
    rcases args with _ | ⟨value, _ | ⟨value', args⟩⟩
    · exact .failed ⟨by simp only [Fault.seen, h], hw⟩
    · obtain ⟨whole, out, hout, hout'⟩ := Sink.write_eq_after hw.room (value.display ++ "\n")
      dsimp only [Builtin.printLine]
      rw [hout, hout']
      cases whole with
      | true => exact .done rfl (hw.print out)
      | false => exact .failed ⟨by simp only [Fault.seen, h], hw.print out⟩
    · exact .failed ⟨by simp only [Fault.seen, h], hw⟩

end Same

end Comparison

end RuleScript
