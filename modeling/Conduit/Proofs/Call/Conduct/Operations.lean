/-
# What a party is asked to do, step by step

Every operation that the terms permit goes by strides from having nothing in hand to having
nothing in hand (`leads_perform`), whether it returns or fails. If everything ends during
it, somebody is at fault (`Blame`).
-/

import Conduit.Proofs.Call.Conduct.Requests
import Conduit.Proofs.Call.Outstanding

namespace Conduit.Rpc

variable {η σ α β : Type}

/-- The calls of a client are among those that may be made. -/
def ClientCall.Permitted (calls : MessageType → List Value → Prop) (rpc : Rpc η) :
    ClientCall → Prop
  | introduce => ∀ ep, rpc.transport = .endpoint ep → calls initiate [.cap ep.home]
  | made => ∀ args, calls made.type args

theorem ClientCall.permitted_of_all {calls : MessageType → List Value → Prop}
    (all : ∀ t args, calls t args) (rpc : Rpc η) (made : ClientCall) : made.Permitted calls rpc := by
  cases made with
  | introduce => exact fun _ _ => all _ _
  | _ => exact fun _ => all _ _

/-- The operation is one that the terms let the party do. -/
def Operation.Permitted (terms : Terms σ) (rpc : Rpc η) : Operation η σ → Prop
  | call t args => terms.calls t args
  | client made => made.Permitted terms.calls rpc
  | onMessage => terms.notices
  | dispatchPending => terms.notices
  | register _ => True
  | installStandard => True
  | handle _ _ => True
  | setPageSize _ => True
  | useTransport _ => False

variable [Handler η σ] {terms : Terms σ}

/-- From having nothing in hand the task comes back to it. -/
def Idles (terms : Terms σ) (task : Task (Rpc η) σ α) : Prop :=
  ∀ now, Leads terms task .free now (fun _ _ last _ => last = .free) fun _ _ last _ => last = .free

namespace Idles

protected theorem pure (a : α) : Idles terms (pure a : Task (Rpc η) σ α) :=
  fun _ => leads_pure rfl

theorem fail (e : Error) : Idles terms (Task.fail e : Task (Rpc η) σ α) := fun _ => leads_fail rfl

theorem ofExcept (result : Except Error α) :
    Idles terms (Task.ofExcept result : Task (Rpc η) σ α) :=
  fun _ => leads_ofExcept (fun _ _ => rfl) fun _ _ => rfl

protected theorem bind {task : Task (Rpc η) σ β} {next : β → Task (Rpc η) σ α}
    (first : Idles terms task) (later : ∀ b, Idles terms (next b)) :
    Idles terms (task >>= next) := by
  intro now
  refine leads_bind ((first now).mono ?_ fun _ _ _ _ ends => ends)
  rintro b events last mid rfl
  exact later b mid

theorem call {t : MessageType} {args : List Value} (made : terms.calls t args) :
    Idles terms (Rpc.call t args : Task (Rpc η) σ (List Value)) := fun _ => leads_call made

theorem notify {t : MessageType} {args : List Value} (made : terms.calls t args) :
    Idles terms (Rpc.notify t args : Task (Rpc η) σ Unit) := .bind (.call made) fun _ => .pure ()

theorem serialGet (made : ∀ args, terms.calls getChar args) :
    Idles terms (Rpc.serialGet : Task (Rpc η) σ UInt8) :=
  .bind (.call (made [])) fun _ => .bind (.ofExcept _) fun _ => .pure _

theorem readLineBytes (made : ∀ args, terms.calls getChar args) (limit : Nat) :
    Idles terms (Rpc.readLineBytes limit : Task (Rpc η) σ (List UInt8)) := by
  induction limit with
  | zero => exact .pure []
  | succ limit ih =>
      refine .bind (.serialGet made) fun c => ?_
      split
      · exact .pure []
      · exact .bind ih fun _ => .pure _

theorem readLine (made : ∀ args, terms.calls getChar args) (limit : Nat) :
    Idles terms (Rpc.readLine limit : Task (Rpc η) σ String) := by
  unfold Rpc.readLine
  split
  · exact fun now => leads_bind (leads_panic (.line _))
  · exact .bind (.readLineBytes made limit) fun _ => .pure _

theorem getProcesses (made : ∀ args, terms.calls processList args) :
    Idles terms (Rpc.getProcesses : Task (Rpc η) σ (List UInt64)) := by
  refine .bind (.call (made [])) fun rets => .bind (.ofExcept _) fun count =>
    .bind (.ofExcept _) fun text => ?_
  split
  · exact .pure _
  · exact .fail _

end Idles

/-- The calls of clients. -/
theorem leads_make {made : ClientCall} {now : Moment (Rpc η) σ}
    (permitted : made.Permitted terms.calls now.self) :
    Leads terms made.make .free now (fun _ _ last _ => last = .free)
      fun _ _ last _ => last = .free := by
  cases made with
  | introduce =>
      refine leads_self_bind ?_
      cases across : now.self.transport with
      | slots chan => exact leads_fail rfl
      | endpoint ep => exact Idles.notify (permitted ep across) now
  | sendNumber number => exact Idles.notify (permitted _) now
  | sendString text => exact Idles.notify (permitted _) now
  | getRam bytes alignment =>
      exact Idles.bind (.bind (.call (permitted _)) fun _ => .bind (.ofExcept _) fun _ =>
        .bind (.ofExcept _) fun _ => .pure _) (fun _ => .pure ()) now
  | serialPut c => exact Idles.notify (permitted _) now
  | serialGet => exact Idles.bind (.serialGet permitted) (fun _ => .pure ()) now
  | readLine limit => exact Idles.bind (.readLine permitted limit) (fun _ => .pure ()) now
  | spawnProcess command core =>
      exact Idles.bind (.bind (.call (permitted _)) fun _ => .ofExcept _) (fun _ => .pure ()) now
  | getProcessName pid =>
      exact Idles.bind (.bind (.call (permitted _)) fun _ => .ofExcept _) (fun _ => .pure ()) now
  | getProcesses => exact Idles.bind (.getProcesses permitted) (fun _ => .pure ()) now
  | ping => exact Idles.notify (permitted _) now

omit [Handler η σ] in
/-- Bindings are registered one after the other. -/
theorem course_registerAll (bindings : List Binding) (phase : Phase) (now : Moment (Rpc η) σ) :
    Course terms (phase, now) [] (phase, { now with self := (now.self.registerAll bindings).2 }) := by
  refine registerAll_keeps
    (P := fun rpc => Course terms (phase, now) [] (phase, { now with self := rpc })) (.nil _) ?_
  intro before after b _ registered course
  have deal : Deal terms.calls terms.notices ⟨phase, before, now.scene.machine⟩ []
      ⟨phase, after, now.scene.machine⟩ := .register registered
  have last : Stride terms (phase, { now with self := before }) []
      (phase, { now with self := after }) := .deal deal
  exact course.next last

/-- Every operation that is permitted goes by strides and leaves nothing in hand. -/
theorem leads_perform (wanders : Wanders η terms.asides) {op : Operation η σ}
    {now : Moment (Rpc η) σ} (permitted : op.Permitted terms now.self) :
    Leads terms op.perform .free now (fun _ _ last _ => last = .free)
      fun _ _ last _ => last = .free := by
  cases op with
  | call t args => exact Idles.notify permitted now
  | client made => exact leads_make permitted
  | onMessage => exact Idles.bind (leads_onMessage wanders permitted) (fun _ => .pure ()) now
  | dispatchPending =>
      exact Idles.bind (leads_dispatchPending wanders permitted) (fun _ => .pure ()) now
  | register b =>
      refine leads_self_bind ?_
      cases registered : now.self.register b with
      | ok rpc =>
          have deal : Deal terms.calls terms.notices ⟨.free, now.self, now.scene.machine⟩ []
              ⟨.free, rpc, now.scene.machine⟩ := .register registered
          exact ⟨[], _, .single (.deal deal), rfl⟩
      | error e => exact leads_fail rfl
  | installStandard =>
      have installed : Course terms (.free, now) [] (.free, { now with
          self := (now.self.registerAll standardBindings).2 }) :=
        course_registerAll standardBindings .free now
      refine leads_self_bind ?_
      unfold Leads
      rw [Task.setSelf_bind]
      exact Leads.after installed (leads_ofExcept (fun _ _ => rfl) fun _ _ => rfl)
  | handle t handler =>
      have deal : Deal terms.calls terms.notices ⟨.free, now.self, now.scene.machine⟩ []
          ⟨.free, now.self.handle t handler, now.scene.machine⟩ := .handlers _ _
      exact ⟨[], _, .single (.deal deal), rfl⟩
  | setPageSize bytes =>
      have deal : Deal terms.calls terms.notices ⟨.free, now.self, now.scene.machine⟩ []
          ⟨.free, { now.self with pageSize := bytes }, now.scene.machine⟩ := .pageSize _ _
      exact ⟨[], _, .single (.deal deal), rfl⟩
  | useTransport use => exact permitted.elim

/-- Whatever a party that may make any call has completed by itself, it went there by strides. -/
theorem course_of_completed (terms : Terms σ) (wanders : Wanders η terms.asides)
    (calls : ∀ t args, terms.calls t args) (notices : terms.notices) {op : Operation η σ}
    {now after : Moment (Rpc η) σ} {outcome : Except Error Unit} (own : ∀ use, op ≠ .useTransport use)
    (completed : Task.settle op.perform now = .ok outcome after) :
    ∃ events, Course terms (.free, now) events (.free, after) := by
  have permitted : op.Permitted terms now.self := by
    cases op with
    | call t args => exact calls t args
    | client made => exact made.permitted_of_all calls now.self
    | onMessage => exact notices
    | dispatchPending => exact notices
    | useTransport use => exact own use rfl
    | _ => exact trivial
  have leads : Leads terms (Task.settle op.perform) .free now (fun _ _ last _ => last = .free)
      fun _ _ _ _ => False := leads_settle (leads_perform wanders permitted)
  obtain ⟨events, last, course, rfl⟩ := leads.of_ok completed
  exact ⟨events, course⟩

end Conduit.Rpc
