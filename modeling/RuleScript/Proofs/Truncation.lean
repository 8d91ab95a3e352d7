import RuleScript.Proofs.Course
import RuleScript.Proofs.Reports

/-!
# A full sink only truncates

What a program does on a sink with a limit is what it does on a sink without one, up to the
print that goes over the limit. There it stops: as much of the line is taken as there is room
for, the run fails, and nothing is evaluated any more.

* `World.capped`: the same world with a limit on its sink.
* `Eval.Truncates`: from the capped world a process does the same, or it stops at a print that
  crosses the limit. It is a law of visits (`Eval.truncates_law`).
* `Visit.Starts.of_capped`: the visits of the limited run are visits of the other.
* `Program.report_after`: what a program does on a sink depends on the room that is left, so
  programs that are run one after another share the limit and nothing else.
-/

namespace RuleScript

/-! ### Sinks with and without a limit -/

/-- The line that is printed for a value. -/
def Value.line (value : Value) : ByteArray := (value.display ++ "\n").toUTF8

namespace World

/-- The world with a **limit** on its sink. -/
def capped (limit : Nat) (w : World) : World := w.withSink ⟨some limit, w.sink.written⟩

/-- The sink has no limit, and has **not taken more** than the given number of bytes. -/
def Within (limit : Nat) (w : World) : Prop :=
  w.sink.limit = none ∧ w.sink.written.size ≤ limit

/-- The line of a value would **cross** the limit. -/
structure Crosses (w : World) (limit : Nat) (value : Value) : Prop where
  before : w.sink.written.size ≤ limit
  beyond : limit < (w.sink.written ++ value.line).size

/-- The world after a value was printed. -/
def printing (value : Value) (w : World) : World :=
  ⟨w.store, w.sink.after value.line, w.events.push (.callingBuiltin Builtin.print.name 1)⟩

/-- The world after a print that was **cut off** at the limit. -/
def cutOff (limit : Nat) (value : Value) (w : World) : World :=
  ⟨w.store, ⟨some limit, w.sink.written ++ value.line.extract 0 (limit - w.sink.written.size)⟩,
    w.events.push (.callingBuiltin Builtin.print.name 1)⟩

end World

/-- There are no more bytes to take than there are. -/
theorem extract_of_size_le {bytes : ByteArray} {limit : Nat} (h : bytes.size ≤ limit) :
    bytes.extract 0 limit = bytes := by
  apply ByteArray.ext
  rw [ByteArray.data_extract]
  exact Array.extract_eq_self_of_le h

/-- What is taken up to the cut is the **beginning** of all that is printed. -/
theorem World.Crosses.written_cutOff {w : World} {limit : Nat} {value : Value}
    (h : w.Crosses limit value) (more : ByteArray) :
    (w.cutOff limit value).sink.written =
      (w.sink.written ++ value.line ++ more).extract 0 limit := by
  have hmore : more.extract (0 - (w.sink.written ++ value.line).size)
      (limit - (w.sink.written ++ value.line).size) = .empty := by
    rw [Nat.sub_eq_zero_of_le (Nat.le_of_lt h.beyond), ByteArray.extract_eq_empty_iff]
    omega
  rw [ByteArray.extract_append, hmore, ByteArray.append_empty, ByteArray.extract_append,
    extract_of_size_le h.before, Nat.zero_sub]
  rfl

namespace Eval

variable {α β : Type} {limit : Nat} {w : World}

/-! ### Printing -/

section Print

variable {value : Value} {span : Span}

theorem print_free (h : w.sink.limit = none) :
    (callBuiltin .print [value] span).run w = (.done value, w.printing value) := by
  have hwrite : w.sink.write (value.display ++ "\n") = (true, w.sink.after value.line) := by
    rw [Sink.write, Sink.room, h, Sink.after, h]
    rfl
  rw [callBuiltin, Process.run_bind_done rfl]
  dsimp only [Builtin.call, Builtin.printLine]
  rw [hwrite]
  rfl

theorem print_capped (w : World) :
    (callBuiltin .print [value] span).run (w.capped limit) =
      (if value.line.size ≤ limit - w.sink.written.size then .done value
        else .failed (.output Builtin.sinkFull span), w.cutOff limit value) := by
  have hwrite : (w.capped limit).sink.write (value.display ++ "\n") =
      (decide (value.line.size ≤ limit - w.sink.written.size), (w.cutOff limit value).sink) := rfl
  rw [callBuiltin, Process.run_bind_done rfl]
  dsimp only [Builtin.call, Builtin.printLine]
  rw [hwrite]
  by_cases h : value.line.size ≤ limit - w.sink.written.size
  · rw [decide_eq_true h, if_pos h]
    rfl
  · rw [decide_eq_false h, if_neg h]
    rfl

/-- A line that fits is taken as a whole. -/
theorem cutOff_of_fits (h : value.line.size ≤ limit - w.sink.written.size) :
    w.cutOff limit value = (w.printing value).capped limit := by
  rw [World.cutOff, extract_of_size_le h]
  rfl

end Print

/-! ### Truncation -/

/-- How a process **ends under a limit**, compared with how it ends without one. -/
inductive Cut (limit : Nat) (Prints : Value → Span → World → Prop) (x : Eval α) (w : World) :
    Prop where
  /-- in the same way, if there is room for all that is printed -/
  | fits (hsize : (x.run w).2.sink.written.size ≤ limit)
    (hrun : x.run (w.capped limit) = ((x.run w).1, (x.run w).2.capped limit))
  /-- at the print that crosses the limit, with a fault that blames it -/
  | stops {value : Value} {span : Span} {u : World} {more : ByteArray}
    (hprints : Prints value span u) (hcrosses : u.Crosses limit value)
    (hwritten : (x.run w).2.sink.written = u.sink.written ++ value.line ++ more)
    (hrun : x.run (w.capped limit) =
      (.failed (.output Builtin.sinkFull span), u.cutOff limit value))

/-- The limit **only truncates** what a process does: without one, printing goes on and on, and
with one, the process stops where the limit is crossed. -/
structure Truncates (limit : Nat) (Prints : Value → Span → World → Prop) (x : Eval α)
    (w : World) : Prop where
  grows : w.sink.limit = none → ∃ out, (x.run w).2.sink = w.sink.after out
  cut : w.Within limit → Cut limit Prints x w

namespace Sinkless

theorem sink_eq {x : Eval α} (h : Sinkless x w) : (x.run w).2.sink = w.sink :=
  congrArg (fun r => r.2.sink) (h w.sink)

theorem capped {x : Eval α} (h : Sinkless x w) (limit : Nat) :
    x.run (w.capped limit) = ((x.run w).1, (x.run w).2.capped limit) := by
  rw [World.capped, h, World.capped, h.sink_eq]

/-- What has nothing to do with the sink is not truncated. -/
theorem truncates {Prints : Value → Span → World → Prop} {x : Eval α} (h : Sinkless x w) :
    Truncates limit Prints x w := by
  refine ⟨fun _ => ⟨.empty, by rw [h.sink_eq, Sink.after_empty]⟩, fun hw => ?_⟩
  refine .fits ?_ (h.capped limit)
  rw [h.sink_eq]
  exact hw.2

theorem bind {x : Eval α} {f : α → Eval β} (hx : Sinkless x w)
    (hf : ∀ a w', x.run w = (.done a, w') → Sinkless (f a) w') : Sinkless (x >>= f) w := by
  intro sink
  rw [Process.run_bind, Process.run_bind, hx sink]
  rcases h : x.run w with ⟨a | fault | _, w'⟩
  · exact hf a w' h sink
  · rfl
  · rfl

theorem define (scope : ScopeId) (rule : Rule) : Sinkless (define scope rule) w := by
  intro sink
  rcases hd : w.store.define scope rule with existing | t
  · rw [define_run_of_taken hd]
    exact define_run_of_taken hd
  · rw [define_run_of_free hd]
    exact define_run_of_free hd

theorem register (root : ScopeId) (items : List Item) : Sinkless (register root items) w := by
  induction items generalizing w with
  | nil => exact fun _ => rfl
  | cons item items ih =>
    cases item with
    | rule r => exact (define root r).bind fun _ _ _ => ih
    | atRule a => exact fun _ => rfl

end Sinkless

namespace Truncates

variable {Prints Prints' : Value → Span → World → Prop}

theorem mono {x : Eval α} (h : Truncates limit Prints x w)
    (himp : ∀ value span u, Prints value span u → Prints' value span u) :
    Truncates limit Prints' x w := by
  refine ⟨h.grows, fun hw => ?_⟩
  cases h.cut hw with
  | fits hsize hrun => exact .fits hsize hrun
  | stops hprints hcrosses hwritten hrun =>
    exact .stops (himp _ _ _ hprints) hcrosses hwritten hrun

/-- After a process, the sink still has no limit. -/
theorem limit_eq {x : Eval α} {outcome : Outcome Fault α} {w' : World}
    (h : Truncates limit Prints x w) (hw : w.sink.limit = none)
    (hrun : x.run w = (outcome, w')) : w'.sink.limit = none := by
  obtain ⟨out, hout⟩ := h.grows hw
  rw [hrun] at hout
  rw [show w'.sink = _ from hout]
  exact hw

/-- A process that ends where another one ends is truncated with it. -/
theorem of_ended {x : Eval α} {y : Eval β} (hx : Truncates limit Prints x w)
    (hworld : (y.run w).2 = (x.run w).2)
    (hfits : x.run (w.capped limit) = ((x.run w).1, (x.run w).2.capped limit) →
      y.run (w.capped limit) = ((y.run w).1, (y.run w).2.capped limit))
    (hstops : ∀ f u, x.run (w.capped limit) = (.failed f, u) →
      y.run (w.capped limit) = (.failed f, u)) : Truncates limit Prints y w := by
  refine ⟨fun hw => by rw [hworld]; exact hx.grows hw, fun hw => ?_⟩
  cases hx.cut hw with
  | fits hsize hrun => exact .fits (by rwa [hworld]) (hfits hrun)
  | stops hprints hcrosses hwritten hrun =>
    exact .stops hprints hcrosses (by rw [hworld, hwritten]) (hstops _ _ hrun)

theorem bind {x : Eval α} {f : α → Eval β} (hx : Truncates limit Prints x w)
    (hf : ∀ a w', x.run w = (.done a, w') → Truncates limit Prints (f a) w') :
    Truncates limit Prints (x >>= f) w := by
  rcases h : x.run w with ⟨a | fault | _, w'⟩
  · have hrun := Process.run_bind_done h f
    have hmore := hf a w' h
    refine ⟨fun hw => ?_, fun hw => ?_⟩
    · obtain ⟨out, hout⟩ := hx.grows hw
      obtain ⟨more, hmore⟩ := hmore.grows (hx.limit_eq hw h)
      rw [h] at hout
      exact ⟨out ++ more, by rw [hrun, hmore, show w'.sink = _ from hout, Sink.after_after]⟩
    · cases hx.cut hw with
      | fits hsize hcapped =>
        rw [h] at hsize hcapped
        have hcapped := Process.run_bind_done hcapped f
        -- up to here there was room enough, and what comes next starts from the capped world
        cases hmore.cut ⟨hx.limit_eq hw.1 h, hsize⟩ with
        | fits hsize' hrun' =>
          exact .fits (by rwa [hrun]) (by rw [hcapped, hrun', hrun])
        | stops hprints hcrosses hwritten hrun' =>
          exact .stops hprints hcrosses (by rw [hrun, hwritten]) (by rw [hcapped, hrun'])
      | @stops value span u more hprints hcrosses hwritten hcapped =>
        -- under the limit nothing comes next, and without it more may be printed
        obtain ⟨out, hout⟩ := hmore.grows (hx.limit_eq hw.1 h)
        rw [h] at hwritten
        have hwritten' : ((x >>= f).run w).2.sink.written =
            u.sink.written ++ value.line ++ (more ++ out) := by
          rw [hrun, hout, Sink.after, show w'.sink.written = _ from hwritten,
            ByteArray.append_assoc]
        exact .stops hprints hcrosses hwritten' (Process.run_bind_failed hcapped f)
  · have hrun := Process.run_bind_failed h f
    refine hx.of_ended (by rw [hrun, h]) (fun hcapped => ?_) fun _ _ hcapped => ?_
    · rw [h] at hcapped
      rw [hrun, Process.run_bind_failed hcapped f]
    · exact Process.run_bind_failed hcapped f
  · have hrun := Process.run_bind_exhausted h f
    refine hx.of_ended (by rw [hrun, h]) (fun hcapped => ?_) fun _ _ hcapped => ?_
    · rw [h] at hcapped
      rw [hrun, Process.run_bind_exhausted hcapped f]
    · exact Process.run_bind_failed hcapped f

/-- A print that fits does the same under the limit, and one that does not is the print at
which everything stops. -/
theorem callBuiltin {b : Builtin} {args : List Value} {span : Span}
    (h : ∀ value, b = .print → args = [value] → Prints value span w) :
    Truncates limit Prints (Eval.callBuiltin b args span) w := by
  cases b with
  | print =>
    rcases args with _ | ⟨value, _ | ⟨value', args⟩⟩
    · exact Sinkless.truncates fun _ => rfl
    · refine ⟨fun hw => ⟨value.line, by rw [print_free hw]; rfl⟩, fun hw => ?_⟩
      have hfree : (Eval.callBuiltin .print [value] span).run w = _ := print_free hw.1
      have hcapped : (Eval.callBuiltin .print [value] span).run (w.capped limit) = _ :=
        print_capped w
      have hsize := hw.2
      by_cases hfits : value.line.size ≤ limit - w.sink.written.size
      · rw [if_pos hfits, cutOff_of_fits hfits] at hcapped
        refine .fits ?_ (by rw [hcapped, hfree])
        rw [hfree]
        change (w.sink.written ++ value.line).size ≤ limit
        rw [ByteArray.size_append]
        omega
      · rw [if_neg hfits] at hcapped
        have hcrosses : w.Crosses limit value := by
          refine ⟨hsize, ?_⟩
          rw [ByteArray.size_append]
          omega
        have hwritten : ((Eval.callBuiltin .print [value] span).run w).2.sink.written =
            w.sink.written ++ value.line ++ .empty := by
          rw [hfree, ByteArray.append_empty]
          rfl
        exact .stops (h value rfl rfl) hcrosses hwritten hcapped
    · exact Sinkless.truncates fun _ => rfl

/-- If a process is done under the limit, it is done **in the same way** without it. -/
theorem of_done {x : Eval α} {a : α} {u : World} (hx : Truncates limit Prints x w)
    (hw : w.Within limit) (hrun : x.run (w.capped limit) = (.done a, u)) :
    ∃ w', x.run w = (.done a, w') ∧ u = w'.capped limit ∧ w'.Within limit := by
  cases hx.cut hw with
  | fits hsize hcapped =>
    rcases h : x.run w with ⟨outcome, w'⟩
    rw [h] at hsize hcapped
    rw [hcapped] at hrun
    cases hrun
    exact ⟨w', rfl, rfl, hx.limit_eq hw.1 h, hsize⟩
  | stops _ _ _ hcapped =>
    rw [hcapped] at hrun
    cases hrun

end Truncates

/-- That the limit only truncates is a **law**, whatever is asked of the print at which a visit
stops, if it is true of the prints that a visit calls itself and is taken over from the visits
that it starts. -/
theorem truncates_law (limit : Nat) {Prints : Nat → Visit → Value → Span → World → Prop}
    (calls : ∀ {n v value span w}, v.Calls n .print [value] span w → Prints (n + 1) v value span w)
    (starts : ∀ {n v v' value span w}, v.Starts n v' → Prints n v' value span w →
      Prints (n + 1) v value span w) :
    Visit.Law fun n v {_} x w => Truncates limit (Prints n v) x w where
  exhaust := Sinkless.truncates fun _ => rfl
  quiet h := h.sinkless.truncates
  bind := Truncates.bind
  define := (Sinkless.define _ _).truncates
  builtin h := .callBuiltin fun value hb hvalues => calls (by rwa [hb, hvalues] at h)
  starts hs h := h.mono fun _ _ _ => starts hs

end Eval

/-! ### Visits under a limit -/

/-- The prints that a visit **leads to**. -/
def Visit.Prints (n : Nat) (v : Visit) (value : Value) (span : Span) (w : World) : Prop :=
  ∃ m u, Visit.Reaches n v (m + 1) u ∧ u.Calls m .print [value] span w

/-- The visit with a limit on its sink. -/
def Visit.capped (limit : Nat) (v : Visit) : Visit := ⟨v.path, v.task, v.world.capped limit⟩

section Visits

variable {limit n m : Nat} {v u : Visit}

/-- The evaluator is truncated at a print that the visit leads to. -/
theorem Eval.evaluatorTruncates (limit n : Nat) :
    Visit.Follows (fun n v {_} x w => Truncates limit (v.Prints n) x w) n := by
  refine (truncates_law limit ?_ ?_).follows n
  · intro n v value span w h
    exact ⟨n, v, .refl, h⟩
  · rintro n v v' value span w hs ⟨m, u, hreach, hcalls⟩
    exact ⟨m, u, .step hs hreach, hcalls⟩

/-- **Step**: what a visit starts under the limit it starts without it too, and there no more
is printed by then than fits. -/
theorem Visit.Starts.of_capped (hv : v.world.Within limit) (hs : (v.capped limit).Starts n u) :
    ∃ v', v.Starts n v' ∧ u = v'.capped limit ∧ v'.world.Within limit := by
  have law : Visit.Law fun _ _ {_} x w => Eval.Truncates limit (fun _ _ _ => True) x w :=
    Eval.truncates_law limit (fun _ => trivial) (fun _ _ => trivial)
  have hall := law.follows n
  have hargs : ∀ scope es w, Eval.Truncates limit (fun _ _ _ => True)
      (Eval.arguments (Eval.expr n scope) es) w := fun scope es w =>
    law.arguments (n := n) (v := v) fun _ e _ _ w' _ _ => hall.expr [] scope e w'
  have hsequence : ∀ scope last sts w, Eval.Truncates limit (fun _ _ _ => True)
      (Eval.sequence (Eval.statement n scope) last sts) w := fun scope last sts w =>
    law.sequence (n := n) (v := v) fun _ st _ _ w' _ _ => hall.statement [] scope st w'
  have hbind : ∀ (rule : Rule) scope holder params args span w,
      Eval.Truncates limit (fun _ _ _ => True)
        (Eval.bindParameters (Eval.expr n holder) rule.name span scope params args) w :=
    fun rule _ holder _ args span w =>
      law.bindParameters (n := n) (v := ⟨[], .invoke rule holder args span, w⟩) (.head _)
        fun _ _ _ e w' _ _ _ _ => hall.expr [] holder e w'
  obtain ⟨path, task, w⟩ := v
  change Visit.Starts n ⟨path, task, w.capped limit⟩ u at hs
  cases hs with
  | operand => exact ⟨_, .operand, rfl, hv⟩
  | left => exact ⟨_, .left, rfl, hv⟩
  | right hleft hgoes =>
    obtain ⟨w', hfree, rfl, hw'⟩ := (hall.expr [] _ _ w).of_done hv hleft
    exact ⟨_, .right hfree hgoes, rfl, hw'⟩
  | argument hbefore =>
    obtain ⟨w', hfree, rfl, hw'⟩ := (hargs _ _ w).of_done hv hbefore
    exact ⟨_, .argument hfree, rfl, hw'⟩
  | call hrun hfound hk =>
    obtain ⟨w', hfree, rfl, hw'⟩ := (hargs _ _ w).of_done hv hrun
    exact ⟨_, .call hfree hfound hk, rfl, hw'⟩
  | declared hd hvalue => exact ⟨_, .declared hd hvalue, rfl, hv⟩
  | statementArgument hd hfound hvalues hbefore =>
    obtain ⟨w', hfree, rfl, hw'⟩ := (hargs _ _ w).of_done hv hbefore
    exact ⟨_, .statementArgument hd hfound hvalues hfree, rfl, hw'⟩
  | statementCall hd hfound hk hrun =>
    obtain ⟨w', hfree, rfl, hw'⟩ := (hargs _ _ w).of_done hv hrun
    exact ⟨_, .statementCall hd hfound hk hfree, rfl, hw'⟩
  | condition hname hparam hbody => exact ⟨_, .condition hname hparam hbody, rfl, hv⟩
  | inner hname hparam hbody hcond hsplit hbefore =>
    obtain ⟨w₁, hfree, rfl, hw₁⟩ := (hall.expr [] _ _ w).of_done hv hcond
    obtain ⟨w', hfree', rfl, hw'⟩ := (hsequence _ _ _ (w₁.entering _)).of_done hw₁ hbefore
    exact ⟨_, .inner hname hparam hbody hfree hsplit hfree', rfl, hw'⟩
  | payload hname hbody hparam => exact ⟨_, .payload hname hbody hparam, rfl, hv⟩
  | @default _ rule holder args _ _ _ _ _ _ _ hcount hsplit hbefore harg hdefault =>
    obtain ⟨w', hfree, rfl, hw'⟩ := (hbind _ _ _ _ _ _
      ((w.noting (.invokingRule rule.name args.length)).entering holder)).of_done hv hbefore
    exact ⟨_, .default hcount hsplit hfree harg hdefault, rfl, hw'⟩
  | @body _ rule holder args _ _ _ _ _ _ _ _ hcount hbound hsplit hbefore =>
    obtain ⟨w₁, hfree, rfl, hw₁⟩ := (hbind _ _ _ _ _ _
      ((w.noting (.invokingRule rule.name args.length)).entering holder)).of_done hv hbound
    obtain ⟨w', hfree', rfl, hw'⟩ := (hsequence _ _ _ w₁).of_done hw₁ hbefore
    exact ⟨_, .body hcount hfree hsplit hfree', rfl, hw'⟩

/-- **Run**: what a visit leads to under the limit it leads to without it too. -/
theorem Visit.Reaches.of_capped (hv : v.world.Within limit)
    (hr : Visit.Reaches n (v.capped limit) m u) :
    ∃ v', Visit.Reaches n v m v' ∧ u = v'.capped limit ∧ v'.world.Within limit := by
  generalize hx : v.capped limit = x at hr
  induction hr generalizing v with
  | refl =>
    subst hx
    exact ⟨v, .refl, rfl, hv⟩
  | step hs _ ih =>
    subst hx
    obtain ⟨v₁, hstarts, rfl, hv₁⟩ := hs.of_capped hv
    obtain ⟨v', hreach, rfl, hv'⟩ := ih hv₁ rfl
    exact ⟨v', .step hstarts hreach, rfl, hv'⟩

end Visits

/-! ### Programs under a limit -/

namespace Program

variable {p : Program} {depth limit n : Nat} {u : Visit}

theorem Begins.of_capped (h : p.Begins (.empty (some limit)) u) :
    ∃ v, p.Begins (.empty none) v ∧ u = v.capped limit ∧ v.world.Within limit := by
  cases h with
  | @main w rule holder hregister hmain =>
    have hsinkless : Eval.Sinkless (Eval.register 0 p.items) ⟨.add .empty none, .empty none, #[]⟩ :=
      .register 0 p.items
    have hcapped := hregister.symm.trans (hsinkless.capped limit)
    have hsink := hsinkless.sink_eq
    rcases hfree : (Eval.register 0 p.items).run ⟨.add .empty none, .empty none, #[]⟩
      with ⟨outcome, w₁⟩
    rw [hfree] at hcapped hsink
    cases hcapped
    refine ⟨_, .main hfree hmain, rfl, ?_⟩
    change w₁.sink.limit = none ∧ w₁.sink.written.size ≤ limit
    rw [hsink]
    exact ⟨rfl, Nat.zero_le limit⟩

/-- **Under the limit nothing is visited** but what is visited without it, at a time when no
more is printed than fits. -/
theorem Visits.of_capped (h : p.Visits depth (.empty (some limit)) n u) :
    ∃ v, p.Visits depth (.empty none) n v ∧ u = v.capped limit ∧ v.world.Within limit := by
  obtain ⟨first, hfirst, hreach⟩ := h
  obtain ⟨main, hmain, rfl, hwithin⟩ := hfirst.of_capped
  obtain ⟨v, hreach', rfl, hv⟩ := hreach.of_capped hwithin
  exact ⟨v, ⟨main, hmain, hreach'⟩, rfl, hv⟩

/-- A program is truncated at a print that is called in one of its **visits**. -/
theorem truncates (p : Program) (depth limit : Nat) :
    Eval.Truncates limit (fun value span w => ∃ n u, p.Visits depth (.empty none) (n + 1) u ∧
        u.Calls n .print [value] span w)
      (Eval.program depth p) (.start (.empty none)) := by
  rw [Eval.program]
  refine (Eval.Sinkless.truncates fun _ => rfl).bind fun root w₀ hroot => ?_
  cases hroot
  refine (Eval.Sinkless.register _ _).truncates.bind fun _ w hregister => ?_
  refine (Eval.Sinkless.truncates fun _ => rfl).bind fun s w' hstore => ?_
  cases hstore
  split
  · exact Eval.Sinkless.truncates fun _ => rfl
  · next rule holder hmain =>
    refine (Eval.Sinkless.truncates fun _ => rfl).bind fun _ w₁ hrecord => ?_
    cases hrecord
    refine ((Eval.evaluatorTruncates limit depth).invoke [p.block] rule holder [] _ _).mono ?_
    rintro value span u ⟨m, v, hreach, hcalls⟩
    exact ⟨m, v, ⟨_, .main hregister hmain, hreach⟩, hcalls⟩

/-- **Enough room**: under the limit a program does what it does without one. -/
theorem run_of_fits
    (h : ((Eval.program depth p).run (.start (.empty none))).2.sink.written.size ≤ limit) :
    (Eval.program depth p).run (.start (.empty (some limit))) =
      (((Eval.program depth p).run (.start (.empty none))).1,
        ((Eval.program depth p).run (.start (.empty none))).2.capped limit) := by
  cases (p.truncates depth limit).cut ⟨rfl, Nat.zero_le limit⟩ with
  | fits _ hrun => exact hrun
  | stops _ hcrosses hwritten _ =>
    have hbeyond := hcrosses.beyond
    rw [hwritten, ByteArray.size_append] at h
    omega

/-- **Too little room**: under the limit a program stops at the print that crosses it, and has
taken the beginning of all that it prints without one. -/
theorem run_of_beyond
    (h : limit < ((Eval.program depth p).run (.start (.empty none))).2.sink.written.size) :
    ∃ n u value span w, p.Visits depth (.empty none) (n + 1) u ∧
      u.Calls n .print [value] span w ∧ w.Crosses limit value ∧
      (Eval.program depth p).run (.start (.empty (some limit))) =
        (.failed (.output Builtin.sinkFull span), w.cutOff limit value) ∧
      (w.cutOff limit value).sink.written =
        ((Eval.program depth p).run (.start (.empty none))).2.sink.written.extract 0 limit := by
  cases (p.truncates depth limit).cut ⟨rfl, Nat.zero_le limit⟩ with
  | fits hfits _ => exact absurd h (Nat.not_lt.2 hfits)
  | @stops value span w more hprints hcrosses hwritten hrun =>
    obtain ⟨n, u, hvisits, hcalls⟩ := hprints
    refine ⟨n, u, value, span, w, hvisits, hcalls, hcrosses, hrun, ?_⟩
    rw [hcrosses.written_cutOff more, ← hwritten]

end Program

/-! ### Programs that share a sink -/

theorem runSource_of_room {sink sink' : Sink} (h : sink.room = sink'.room) (depth : Nat)
    (source : String) :
    (runSource depth source sink).1 = (runSource depth source sink').1 ∧
      ∃ out, (runSource depth source sink).2 = sink.after out := by
  rw [runSource, runSource]
  rcases parse source with e | p
  · exact ⟨rfl, .empty, sink.after_empty.symm⟩
  · obtain ⟨hreport, out, hout, -⟩ := p.report_of_room h depth
    exact ⟨by dsimp only; rw [hreport], out, hout⟩

/-- The sink after programs were run on it, one after another. -/
def Program.sinkAfter (depth : Nat) (ps : List Program) (sink : Sink) : Sink :=
  ps.foldl (fun s p => (p.report depth s).2) sink

/-- The sink after sources were read and run on it, one after another. -/
def sinkAfter (depth : Nat) (sources : List String) (sink : Sink) : Sink :=
  sources.foldl (fun s source => (runSource depth source s).2) sink

/-- The sink keeps its limit, whatever adds to it. -/
theorem foldl_limit {σ : Type} (step : Sink → σ → Sink)
    (hstep : ∀ s a, ∃ out, step s a = s.after out) (as : List σ) (sink : Sink) :
    (as.foldl step sink).limit = sink.limit := by
  induction as generalizing sink with
  | nil => rfl
  | cons a as ih =>
    obtain ⟨out, hout⟩ := hstep sink a
    rw [List.foldl_cons, ih, hout]
    rfl

/-- A sink has the room of an empty one whose limit is smaller by what was taken. -/
theorem Sink.room_eq_empty {sink : Sink} {limit : Nat} (h : sink.limit = some limit) :
    sink.room = (Sink.empty (some (limit - sink.written.size))).room := by
  rw [room, room, h]
  rfl

/-- **After other programs** a program does what it does on a sink of its own, whose limit is
smaller by the bytes that they took. -/
theorem Program.report_after (p : Program) (depth limit : Nat) (earlier : List Program) :
    let sink := Program.sinkAfter depth earlier (.empty (some limit))
    let own := Sink.empty (some (limit - sink.written.size))
    (p.report depth sink).1 = (p.report depth own).1 ∧
      (p.report depth sink).2.written = sink.written ++ (p.report depth own).2.written := by
  intro sink own
  have hadds (s : Sink) (q : Program) : ∃ out, (q.report depth s).2 = s.after out := by
    obtain ⟨-, out, hout, -⟩ := q.report_of_room (rfl : s.room = s.room) depth
    exact ⟨out, hout⟩
  have hlimit : sink.limit = some limit := foldl_limit _ hadds earlier _
  obtain ⟨hreport, out, hout, hown⟩ := p.report_of_room (Sink.room_eq_empty hlimit) depth
  refine ⟨hreport, ?_⟩
  rw [hout, hown, Sink.after, Sink.after, Sink.empty, ByteArray.empty_append]

theorem runSource_after (depth limit : Nat) (source : String) (earlier : List String) :
    let sink := sinkAfter depth earlier (.empty (some limit))
    (runSource depth source sink).1 =
      (runSource depth source (.empty (some (limit - sink.written.size)))).1 := by
  intro sink
  have hlimit : sink.limit = some limit :=
    foldl_limit _ (fun s q => (runSource_of_room (rfl : s.room = s.room) depth q).2) earlier _
  exact (runSource_of_room (Sink.room_eq_empty hlimit) depth source).1

theorem runSources_getElem? (depth : Nat) (sources : List String) (sink : Sink) (k : Nat) :
    (runSources depth sources sink)[k]? = sources[k]?.map fun source =>
      (runSource depth source (sinkAfter depth (sources.take k) sink)).1 := by
  induction sources generalizing sink k with
  | nil => simp [runSources]
  | cons source sources ih =>
    cases k with
    | zero => rfl
    | succ k => exact ih (runSource depth source sink).2 k

/-- **A full sink only truncates.** Compare running a program on a sink with a limit and on one
without.

* If all that is printed without a limit fits, the outcome is the same under the limit, the
  same is printed, and so is all else that is left of the run.
* If not, there is a visit that calls `print` when what was printed so far fits, but not with
  this line. Under the limit the run fails for want of room, and blames that call; what is
  taken are the first bytes of all that is printed, up to the limit; and scopes and record are
  left as they were when `print` was called.
* What is visited under the limit is visited without it, at a time when no more is printed
  than fits: nothing is evaluated after the call that fails.
* Of programs that are run one after another on one sink, each does what it does on a sink of
  its own whose limit is smaller by the bytes that were taken before, and prints the same bytes
  there. -/
theorem sink_only_truncates (p : Program) (depth limit : Nat) :
    let free := (Eval.program depth p).run (.start (.empty none))
    let limited := (Eval.program depth p).run (.start (.empty (some limit)))
    (free.2.sink.written.size ≤ limit → limited = (free.1, free.2.capped limit)) ∧
    (limit < free.2.sink.written.size → ∃ n u value span w,
      p.Visits depth (.empty none) (n + 1) u ∧ u.Calls n .print [value] span w ∧
      w.Crosses limit value ∧ limited.1 = .failed (.output Builtin.sinkFull span) ∧
      limited.2.sink.written = free.2.sink.written.extract 0 limit ∧
      limited.2.store = w.store ∧
      limited.2.events = w.events.push (.callingBuiltin Builtin.print.name 1)) ∧
    (∀ n u, p.Visits depth (.empty (some limit)) n u → ∃ v, p.Visits depth (.empty none) n v ∧
      u = v.capped limit ∧ v.world.sink.written.size ≤ limit) ∧
    (∀ earlier, let sink := Program.sinkAfter depth earlier (.empty (some limit))
      let own := Sink.empty (some (limit - sink.written.size))
      (p.report depth sink).1 = (p.report depth own).1 ∧
        (p.report depth sink).2.written = sink.written ++ (p.report depth own).2.written) ∧
    ∀ (sources : List String) (k : Nat),
      (runSources depth sources (.empty (some limit)))[k]? = sources[k]?.map fun source =>
        let sink := sinkAfter depth (sources.take k) (.empty (some limit))
        (runSource depth source (.empty (some (limit - sink.written.size)))).1 := by
  intro free limited
  refine ⟨Program.run_of_fits, fun hsize => ?_, fun n u hu => ?_, p.report_after depth limit, ?_⟩
  · obtain ⟨n, u, value, span, w, hvisits, hcalls, hcrosses, hrun, hwritten⟩ :=
      Program.run_of_beyond hsize
    have hlimited : limited = _ := hrun
    refine ⟨n, u, value, span, w, hvisits, hcalls, hcrosses, ?_⟩
    rw [hlimited]
    exact ⟨rfl, hwritten, rfl, rfl⟩
  · obtain ⟨v, hv, rfl, hwithin⟩ := hu.of_capped
    exact ⟨v, hv, rfl, hwithin.2⟩
  · intro sources k
    rw [runSources_getElem?]
    exact Option.map_congr fun source _ => runSource_after depth limit source (sources.take k)

/-- A program that prints two lines. -/
def Program.twoLines : Program :=
  let print (text : String) : Statement :=
    .declaration ⟨⟨"print", default⟩, [.literal (.string text) default], default⟩
  ⟨[.rule ⟨⟨⟨"main", default⟩, [], default⟩, [print "ab", print "cd"], default⟩]⟩

/-- With room for four bytes, the second line is cut off after its first character. -/
theorem sink_only_truncates_twoLines :
    let free := (Eval.program 3 .twoLines).run (.start (.empty none))
    let limited := (Eval.program 3 .twoLines).run (.start (.empty (some 4)))
    free.2.sink.written = "ab\ncd\n".toUTF8 ∧
    (∃ span, limited.1 = .failed (.output Builtin.sinkFull span)) ∧
    limited.2.sink.written = "ab\nc".toUTF8 := by
  have hfree : ((Eval.program 3 .twoLines).run (.start (.empty none))).2.sink.written =
      "ab\ncd\n".toUTF8 := by decide +kernel
  obtain ⟨-, hcut, -⟩ := sink_only_truncates .twoLines 3 4
  rw [hfree] at hcut
  obtain ⟨n, u, value, span, w, -, -, -, houtcome, hwritten, -⟩ := hcut (by decide)
  exact ⟨hfree, ⟨span, houtcome⟩, hwritten.trans (by decide)⟩

end RuleScript
