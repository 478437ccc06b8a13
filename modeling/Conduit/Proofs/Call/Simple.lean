/-
# Bindings stay simple

Whatever a party is asked to do, in any order, and whatever happens around it, all bindings that
it knows are simple: one that is not is refused and changes nothing, and no operation changes a
binding that was accepted. Nothing is assumed of the memory, of the others or of the handlers. So
over a capability channel no call ever fails for the convention, and serving a message does only
if its handler says so (`bindings_stay_simple`).
-/

import Conduit.Proofs.Call.Convention
import Conduit.Proofs.Call.Outstanding

namespace Conduit.Rpc

variable {η σ α : Type} {rpc rpc' : Rpc η}

/-! ### Operations -/

theorem Accepted.alike (accepted : Accepted rpc) (alike : Alike rpc rpc') : Accepted rpc' := by
  intro t binding known
  rw [alike.shapes t] at known
  exact accepted t binding known

/-- The bindings are kept by what keeps all that serving leaves alone. -/
theorem keepsAccepted {task : Task (Rpc η) σ α} (keeps : ∀ rpc, KeepsAlike rpc task) :
    Task.KeepsSelf Accepted task := fun now accepted =>
  (keeps now.self now (.refl _)).mono (fun _ _ alike => accepted.alike alike)
    fun _ _ alike => accepted.alike alike

theorem keepsAccepted_onTransport (task : Task Transport σ α) :
    Task.KeepsSelf Accepted (onTransport task : Task (Rpc η) σ α) :=
  keepsAccepted fun _ => keepsAlike_onTransport task

/-- The mark of an owed reply is not part of a binding. -/
theorem keepsAccepted_mark (mark : Option MessageType) : Task.KeepsSelf Accepted
    (Task.modifySelf fun rpc => { rpc with awaiting := mark } : Task (Rpc η) σ Unit) :=
  fun _ accepted => accepted

theorem keepsAccepted_pollReply :
    Task.KeepsSelf Accepted (pollReply : Task (Rpc η) σ (Option Message)) := by
  unfold pollReply
  refine .bind (keepsAccepted_onTransport _) fun waiting => ?_
  split
  · refine .bind (.settle (keepsAccepted_onTransport _)) fun found => ?_
    cases found with
    | ok message => exact .pure _
    | error e => exact .bind (keepsAccepted_mark none) fun _ => .fail _
  · exact .pure _

theorem keepsAccepted_transact (t : MessageType) (request : Message) :
    Task.KeepsSelf Accepted (transact t request : Task (Rpc η) σ Message) := by
  unfold transact
  refine .bind (keepsAccepted fun _ => keepsAlike_transmit request) fun _ => ?_
  refine .bind (keepsAccepted_mark (some t)) fun _ => ?_
  refine .bind (.await keepsAccepted_pollReply) fun reply => ?_
  split
  · exact .fail_bind _ _
  · exact .bind (keepsAccepted_mark none) fun _ => .pure _

theorem keepsAccepted_preparePage (t : MessageType) :
    Task.KeepsSelf Accepted (preparePage t : Task (Rpc η) σ Unit) := by
  unfold preparePage
  refine .bind .self fun rpc => ?_
  refine .bind (.onMachine _) fun granted => ?_
  rcases granted with cause | frame
  · exact .fail_bind _ _
  refine .bind (.pure frame) fun frame => ?_
  refine .bind (.request _) fun page => ?_
  refine .bind .machine fun m => ?_
  refine .bind (.orPanic _) fun written => ?_
  refine .bind (.setMachine _) fun _ => ?_
  refine .bind (.ofExcept _) fun request => ?_
  refine .bind (keepsAccepted_transact setupPage request) fun _ => ?_
  exact fun _ accepted => accepted.nearPage t (some page)

theorem keepsAccepted_exchange (t : MessageType) (args : List Value) (kinds : List Kind) :
    Task.KeepsSelf Accepted (exchange t args kinds : Task (Rpc η) σ (List Value)) :=
  .bind (keepsAccepted fun _ => keepsAlike_encode _ _ _ _) fun request =>
    .bind (keepsAccepted_transact t request) fun _ =>
      keepsAccepted fun _ => keepsAlike_decode _ _ _ _

theorem keepsAccepted_call (t : MessageType) (args : List Value) :
    Task.KeepsSelf Accepted (call t args : Task (Rpc η) σ (List Value)) := by
  intro now accepted
  rcases refused_or_made t args now with ⟨e, failed, -⟩ | ⟨binding, -, same | same⟩
  · rw [failed]
    exact accepted
  · rw [same]
    exact keepsAccepted_exchange t args binding.rets now accepted
  · rw [same]
    exact (keepsAccepted_preparePage t).bind (fun _ => keepsAccepted_exchange t args binding.rets)
      now accepted

/-- What every call keeps, calls on well-known services keep. -/
theorem keepsSelf_make {holds : Rpc η → Prop}
    (calls : ∀ t args, Task.KeepsSelf holds (call t args : Task (Rpc η) σ (List Value)))
    (made : ClientCall) : Task.KeepsSelf holds (made.make : Task (Rpc η) σ Unit) := by
  have notifies : ∀ t args, Task.KeepsSelf holds (notify t args : Task (Rpc η) σ Unit) :=
    fun t args => .bind (calls t args) fun _ => .pure ()
  have gets : Task.KeepsSelf holds (serialGet : Task (Rpc η) σ UInt8) :=
    .bind (calls _ _) fun _ => .bind (.ofExcept _) fun _ => .pure _
  have reads : ∀ limit,
      Task.KeepsSelf holds (readLineBytes limit : Task (Rpc η) σ (List UInt8)) := by
    intro limit
    induction limit with
    | zero => exact .pure []
    | succ limit ih =>
        refine .bind gets fun c => ?_
        split
        · exact .pure []
        · exact .bind ih fun _ => .pure _
  cases made with
  | introduce =>
      refine .bind .self fun rpc => ?_
      cases rpc.transport with
      | slots chan => exact .fail _
      | endpoint ep => exact notifies _ _
  | sendNumber number => exact notifies _ _
  | sendString text => exact notifies _ _
  | getRam bytes alignment =>
      exact .bind (.bind (calls _ _) fun _ => .bind (.ofExcept _) fun _ =>
        .bind (.ofExcept _) fun _ => .pure _) fun _ => .pure ()
  | serialPut c => exact notifies _ _
  | serialGet => exact .bind gets fun _ => .pure ()
  | readLine limit =>
      refine .bind ?_ fun _ => .pure ()
      unfold readLine
      split
      · exact .bind (.halt _) fun _ => .bind (reads limit) fun _ => .pure _
      · exact .bind (reads limit) fun _ => .pure _
  | spawnProcess command core =>
      exact .bind (.bind (calls _ _) fun _ => .ofExcept _) fun _ => .pure ()
  | getProcessName pid => exact .bind (.bind (calls _ _) fun _ => .ofExcept _) fun _ => .pure ()
  | getProcesses =>
      refine .bind (.bind (calls _ _) fun rets => .bind (.ofExcept _) fun count =>
        .bind (.ofExcept _) fun text => ?_) fun _ => .pure ()
      split
      · exact .pure _
      · exact .fail _
  | ping => exact notifies _ _

/-- A binding is refused exactly if it is not simple, and then the party stays as it is. -/
theorem registerBinding_refused (b : Binding) (now now' : Moment (Rpc η) σ) :
    registerBinding b now = .error (.failed .notImplemented) now' ↔ now' = now ∧ ¬ b.Simple := by
  rw [← b.isSimple_iff]
  unfold registerBinding Rpc.register
  rw [Task.self_bind]
  by_cases simple : b.isSimple = true
  · rw [if_pos simple]
    exact iff_of_false nofun fun refused => refused.2 simple
  · rw [if_neg simple]
    constructor
    · intro refused
      cases refused
      exact ⟨rfl, simple⟩
    · rintro ⟨rfl, -⟩
      rfl

theorem keepsAccepted_registerBinding (b : Binding) :
    Task.KeepsSelf Accepted (registerBinding b : Task (Rpc η) σ Unit) := by
  intro now accepted
  unfold registerBinding
  rw [Task.self_bind]
  cases registered : now.self.register b with
  | ok rpc => exact accepted.register registered
  | error e => exact accepted

theorem keepsAccepted_installBindings :
    Task.KeepsSelf Accepted (installBindings : Task (Rpc η) σ Unit) := by
  intro now accepted
  unfold installBindings
  rw [Task.self_bind]
  have installed : Accepted now.self.installStandard.2 := accepted.registerAll standardBindings
  exact Task.KeepsSelf.ofExcept (σ := σ) now.self.installStandard.1 _ installed

section Histories

variable [Handler η σ]

theorem keepsAccepted_onMessage :
    Task.KeepsSelf Accepted (onMessage : Task (Rpc η) σ Dispatch) := fun now accepted =>
  have settled : Accepted (settled now.self (received? now)) := accepted
  (ends_onMessage now).mono (fun _ _ alike => settled.alike alike)
    fun _ _ alike => settled.alike alike

/-- No operation makes a binding known that is not simple. -/
theorem keepsAccepted_perform (op : Operation η σ) : Task.KeepsSelf Accepted op.perform := by
  cases op with
  | call t args => exact .bind (keepsAccepted_call t args) fun _ => .pure ()
  | client made => exact keepsSelf_make keepsAccepted_call made
  | onMessage => exact .bind keepsAccepted_onMessage fun _ => .pure ()
  | dispatchPending =>
      refine .bind (.bind (keepsAccepted_onTransport _) fun event => ?_) fun _ => .pure ()
      split
      · exact keepsAccepted_onMessage
      · exact .pure _
  | register b => exact keepsAccepted_registerBinding b
  | installStandard => exact keepsAccepted_installBindings
  | handle t handler => exact fun _ accepted => accepted
  | setPageSize bytes => exact fun _ accepted => accepted
  | useTransport use => exact keepsAccepted_onTransport use

theorem History.accepted {deeds : List (Deed η σ)} (history : History rpc deeds rpc')
    (accepted : Accepted rpc) : Accepted rpc' := by
  induction history with
  | start => exact accepted
  | next deed _ ih =>
      rcases (keepsAccepted_perform deed.op deed.before ih).settled deed.completed with
        ⟨-, -, kept⟩ | ⟨-, -, kept⟩
      · exact kept
      · exact kept

/-! ### The result -/

/-- Whatever a party was asked to do so far, all bindings that it knows are simple, and one that
is not is refused without any effect. Over a capability channel no call fails for the convention,
whatever its type and its arguments are, and whatever is replied; and serving a message fails for
it only if the handler of the message was asked and said so. -/
theorem bindings_stay_simple {transport : Transport} {deeds : List (Deed η σ)}
    (history : History (create transport) deeds rpc) :
    (∀ t binding, rpc.binding? t = some binding → binding.Simple) ∧
    ∀ (scene : Scene σ) (turns : List (Turn σ)),
      (∀ b now', registerBinding b ⟨rpc, scene, turns⟩ = .error (.failed .notImplemented) now' ↔
        now' = ⟨rpc, scene, turns⟩ ∧ ¬ b.Simple) ∧
      (rpc.transport.isEndpoint = true →
        (∀ t args now', call t args ⟨rpc, scene, turns⟩ ≠ .error (.failed .notImplemented) now') ∧
        ∀ now', onMessage ⟨rpc, scene, turns⟩ = .error (.failed .notImplemented) now' →
          Declined ⟨rpc, scene, turns⟩) := by
  have accepted := history.accepted (.create transport)
  refine ⟨?_, fun scene turns => ⟨fun b now' => registerBinding_refused b _ now', fun across => ?_⟩⟩
  · intro t binding known
    exact (Binding.isSimple_iff binding).mp (accepted t binding known)
  · have here : (⟨rpc, scene, turns⟩ : Moment (Rpc η) σ).self.transport.isEndpoint = true := across
    constructor
    · intro t args now' failed
      have ends := ends_call_conforms here accepted t args
      rw [failed] at ends
      exact ends rfl
    · intro now' failed
      exact declined_of_onMessage here accepted failed

end Histories

/-- A handler that does nothing that it is asked to. -/
structure Unwilling where

instance : Handler Unwilling Unit := ⟨fun _ => Task.fail .notImplemented⟩

/-- A party at one end of a capability channel that had a binding refused, got another one in
place of its own for setting up pages, and provided a handler. The handler is asked, and says
that it does not do that. -/
theorem bindings_stay_simple_declined : ∃ (deeds : List (Deed Unwilling Unit))
    (rpc : Rpc Unwilling) (scene : Scene Unit) (now' : Moment (Rpc Unwilling) Unit),
    History (create (.endpoint { home := ⟨0⟩, peer := some ⟨1⟩ })) deeds rpc ∧
    deeds.map Deed.outcome = [.error .notImplemented, .ok (), .ok (), .ok ()] ∧
    rpc.binding? setupPage = some ⟨setupPage, [.word], [.str]⟩ ∧
    Binding.Simple ⟨setupPage, [.word], [.str]⟩ ∧
    onMessage ⟨rpc, scene, []⟩ = .error (.failed .notImplemented) now' ∧
    Declined ⟨rpc, scene, []⟩ := by
  let silent : Scene Unit := ⟨(Endpoint.createPair (Machine.create 16)).2, ()⟩
  let start : Rpc Unwilling := create (.endpoint { home := ⟨0⟩, peer := some ⟨1⟩ })
  let replaced : Rpc Unwilling :=
    { start with
      entries := start.entries.insert setupPage ⟨⟨setupPage, [.word], [.str]⟩, none, none⟩ }
  let bound : Rpc Unwilling :=
    { replaced with entries := replaced.entries.insert ⟨10⟩ ⟨⟨⟨10⟩, [.word], []⟩, none, none⟩ }
  let refuse : Deed Unwilling Unit := {
    op := .register ⟨⟨10⟩, [.word, .word, .word, .word], []⟩, before := ⟨start, silent, []⟩
    outcome := .error .notImplemented, after := ⟨start, silent, []⟩, completed := rfl }
  let replace : Deed Unwilling Unit := {
    op := .register ⟨setupPage, [.word], [.str]⟩, before := ⟨start, silent, []⟩
    outcome := .ok (), after := ⟨replaced, silent, []⟩, completed := rfl }
  let bind : Deed Unwilling Unit := {
    op := .register ⟨⟨10⟩, [.word], []⟩, before := ⟨replaced, silent, []⟩
    outcome := .ok (), after := ⟨bound, silent, []⟩, completed := rfl }
  let provide : Deed Unwilling Unit := {
    op := .handle ⟨10⟩ {}, before := ⟨bound, silent, []⟩
    outcome := .ok (), after := ⟨bound.handle ⟨10⟩ {}, silent, []⟩, completed := rfl }
  have history : History start [refuse, replace, bind, provide] (bound.handle ⟨10⟩ {}) :=
    .next provide (.next bind (.next replace (.next refuse (.start start))))
  obtain ⟨simple, later⟩ := bindings_stay_simple history
  have known : (bound.handle ⟨10⟩ {}).binding? setupPage = some ⟨setupPage, [.word], [.str]⟩ := by
    decide
  have ran : (Task.failure? (onMessage
      ⟨bound.handle ⟨10⟩ {}, silent.injected ⟨0⟩ 10, []⟩)).map Prod.fst =
        some .notImplemented := by decide
  obtain ⟨⟨e, now'⟩, failed, rfl⟩ := Option.map_eq_some_iff.mp ran
  have failed := Task.failure?_eq_some failed
  exact ⟨_, _, _, now', history, rfl, known, simple _ _ known, failed,
    ((later _ []).2 rfl).2 now' failed⟩

end Conduit.Rpc
