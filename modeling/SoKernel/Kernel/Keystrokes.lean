import Mathlib.Tactic
import SoKernel.Kernel.RunsOn

namespace SoKernel
open MemoryManager QueueName Lib Kernel SoKernel.System

variable {M : Type}

theorem pipeProgram_no_yield {slot : Nat} {request : PipeRequest} {deed : Deed}
    {pipes : Nat → Pipe} {l l' : PipePlace} {log log' : PipeLog}
    (does : pipeProgram slot request l pipes log = some (deed, l', log')) : deed ≠ .yield := by
  rintro rfl
  unfold pipeProgram enterPipe readPipe writePipe clearPipe at does
  dsimp only at does
  repeat' split at does
  all_goals cases does

theorem pipeProgram_of_transfer {slot : Nat} {request : PipeRequest} {l : PipePlace}
    {pipes : Nat → Pipe} {log : PipeLog} {result : Deed × PipePlace × PipeLog}
    (does : transferProgram slot request l pipes log = some result) :
    pipeProgram slot request l pipes log = some result := by
  unfold transferProgram at does
  split at does
  · cases does
  · exact does

/-- To take the lock is to wait for it; every other place inside it comes after one. -/
theorem PipeMove.locks_or {ids : PipeSems} {pipe pipe' : Pipe} {log log' : PipeLog}
    {l l' : PipePlace} {c : Command Int} (move : PipeMove ids pipe log l c l' pipe' log')
    (inside : l'.holdsLock = true) :
    l.holdsLock = true ∧ c = .internal ∨ l.holdsLock = false ∧ c = .wait ids.mutex := by
  cases move with
  | enters _ _ => cases inside
  | refuses _ _ => cases inside
  | clears _ => cases inside
  | admits _ => cases inside
  | returns _ => cases inside
  | locks => exact .inr ⟨rfl, rfl⟩
  | takes _ => exact .inl ⟨rfl, rfl⟩
  | misses _ => exact .inl ⟨rfl, rfl⟩
  | puts _ => exact .inl ⟨rfl, rfl⟩
  | overflows _ => exact .inl ⟨rfl, rfl⟩
  | unlocks => cases inside
  | signals => cases inside
  | clearLocks => exact .inr ⟨rfl, rfl⟩
  | clearResets => exact .inl ⟨rfl, rfl⟩
  | clearUnlocks => cases inside

namespace Terminal

variable [MemoryManager M] {ids : PipeSems} {s t : Clients M PipePlace PipeLog} {rsp : Nat}
variable {deed : Deed} {l : PipePlace} {log : PipeLog} {request : PipeRequest} {label : Label}

omit [MemoryManager M] in
/-- The tokens of pipe 0 are all there, only the running process is inside its lock, and
whoever is inside a call runs or lives. -/
structure Sound (ids : PipeSems) (s : Clients M PipePlace PipeLog) : Prop where
  serviced : Serviced ids.own s.system.kernel
  tokens : PipeTokens 0 ids 0 s.view
  keeps : ∀ p stage, s.loc p ≠ .clearing stage
  locked : ∀ p, (s.loc p).holdsLock = true → p = s.system.kernel.getCurrentPid
  inside : ∀ p, (s.loc p).idle = false → p = s.system.kernel.getCurrentPid ∨
    Living p s.system.kernel

omit [MemoryManager M] in
theorem Sound.unlocked (sound : Sound ids s)
    (out : (s.loc s.system.kernel.getCurrentPid).holdsLock = false) (p : Int) :
    (s.loc p).holdsLock = false := by
  cases holds : (s.loc p).holdsLock with
  | false => rfl
  | true =>
    rw [sound.locked p holds, out] at holds
    cases holds

omit [MemoryManager M] in
/-- Whoever runs outside the lock can take it. -/
theorem Sound.mutex_free (sound : Sound ids s)
    (out : (s.loc s.system.kernel.getCurrentPid).holdsLock = false) :
    (s.system.kernel.semaphores ids.mutex).value = 1 :=
  sound.tokens.mutex.rest (sound.unlocked out)

/-- The running process has done the next thing of its call. -/
def after (rsp : Nat) (deed : Deed) (l : PipePlace) (log : PipeLog)
    (s : Clients M PipePlace PipeLog) : Clients M PipePlace PipeLog :=
  ⟨{ s.system with kernel := deed.run rsp s.system.kernel },
    Function.update s.loc s.system.kernel.getCurrentPid l, log⟩

theorem Sound.does (sound : Sound ids s) (distinct : ids.Distinct) (reusable : NodesReusable M)
    (does : transferProgram 0 request (s.loc s.system.kernel.getCurrentPid)
      s.system.kernel.pipes s.shared = some (deed, l, log))
    (able : CanDo deed s.system.kernel) : Sound ids (after rsp deed l log s) := by
  have serviced := sound.serviced
  have settled := serviced.settled
  have named : (s.system.kernel.pipes 0).sems = ids := sound.tokens.named
  have stays := pipeProgram_no_yield (pipeProgram_of_transfer does)
  have mine := (pipeProgram_moves (pipeProgram_of_transfer does)).2
  rw [named] at mine
  obtain ⟨sems, pipes, kept⟩ := serviced.does rsp reusable mine able fun id mine =>
    sound.tokens.bound mine
  have turned : (after rsp deed l log s).view = s.view.turn s.system.kernel.getCurrentPid
      deed.command l (deed.pipes s.system.kernel.pipes, log) := by
    rw [← pipes]
    exact Clients.view_turn sems
  obtain ⟨move, out⟩ := transferProgram_does (s := s.view)
    (d := (deed.pipes s.system.kernel.pipes, log)) ⟨request, deed, does, rfl, rfl⟩
  have moved : PipeMove ids (s.system.kernel.pipes 0) s.shared
      (s.loc s.system.kernel.getCurrentPid) deed.command l
      (deed.pipes s.system.kernel.pipes 0) log := by
    rw [← named]
    exact move
  obtain ⟨stale, tokens, fewer⟩ := sound.tokens.move (d := (deed.pipes s.system.kernel.pipes, log))
    distinct serviced.orderly serviced.awake moved
  have none : stale = 0 := Nat.le_zero.mp (fewer.resolve_left (sound.keeps _ _))
  subst none
  have self : (after rsp deed l log s).loc s.system.kernel.getCurrentPid = l :=
    Function.update_self _ _ _
  have others : ∀ {p}, p ≠ s.system.kernel.getCurrentPid →
      (after rsp deed l log s).loc p = s.loc p := fun other => Function.update_of_ne other _ _
  refine ⟨kept, by rw [turned]; exact tokens, ?_, ?_, ?_⟩
  · intro p stage
    by_cases same : p = s.system.kernel.getCurrentPid
    · rw [same, self]
      exact out (sound.keeps _) stage
    · rw [others same]
      exact sound.keeps p stage
  · intro p holds
    by_cases same : p = s.system.kernel.getCurrentPid
    · rw [same, self] at holds
      have token : ∀ id, deed = .wait id → 0 < (s.system.kernel.semaphores id).value := by
        rintro id rfl
        rcases moved.locks_or holds with ⟨_, never⟩ | ⟨outside, waits⟩
        · cases never
        · cases waits
          rw [sound.mutex_free outside]
          exact Nat.one_pos
      exact same.trans (deed_runsOn settled reusable stays token).getCurrentPid.symm
    · rw [others same] at holds
      exact absurd (sound.locked p holds) same
  · intro p busy
    have everyone : KeepsLiving none s.system.kernel (deed.run rsp s.system.kernel) :=
      deed_keepsLiving deed settled reusable
    have lives := everyone p (Option.some_ne_none p).symm
    by_cases same : p = s.system.kernel.getCurrentPid
    · by_cases token : ∀ id, deed = .wait id → 0 < (s.system.kernel.semaphores id).value
      · exact .inl (same.trans (deed_runsOn settled reusable stays token).getCurrentPid.symm)
      · refine .inr (lives ?_)
        push Not at token
        obtain ⟨id, waits, empty⟩ := token
        rcases able id waits with token | ⟨ready, _⟩
        · exact absurd token (Nat.not_lt.mpr empty)
        · exact ⟨readyQueue, by decide, _, ready, by rw [same, settled.table.getCurrentPid]⟩
    · rw [others same] at busy
      exact .inr (lives ((sound.inside p busy).resolve_left same))

/-- An event while the running process is in no call. -/
theorem Sound.event {system : System M} (sound : Sound ids s) (reusable : NodesReusable M)
    (rest : (s.loc s.system.kernel.getCurrentPid).idle = true)
    (avoids : Clients.Avoids ids.own label.event) (step : System.Step s.system label system)
    (spares : SparesWaiters label.event s.system.kernel)
    (spared : ∀ pid, label.event.kills s.system.kernel = some pid → (s.loc pid).idle = true) :
    Sound ids { s with system := system } := by
  obtain ⟨kept, untouched⟩ := step.serviced reusable sound.serviced avoids spares
  have free := sound.unlocked (PipePlace.idle_holds rest).2.2
  refine ⟨kept, ?_, sound.keeps, ?_, ?_⟩
  · have tokens := sound.tokens.others untouched.sems
    unfold Clients.view at tokens ⊢
    dsimp only at tokens ⊢
    rw [untouched.pipes]
    exact tokens
  · intro p holds
    change (s.loc p).holdsLock = true at holds
    rw [free p] at holds
    cases holds
  · intro p busy
    have elsewhere : p ≠ s.system.kernel.getCurrentPid := by
      rintro rfl
      exact absurd rest (Bool.eq_false_iff.mp busy)
    refine .inr (event_keepsLiving step reusable sound.serviced.settled p ?_
      ((sound.inside p busy).resolve_left elsewhere))
    intro dies
    exact absurd (spared p dies) (Bool.eq_false_iff.mp busy)

/-- A process that reads or writes the pipe goes on. -/
theorem Sound.turn (sound : Sound ids s) (distinct : ids.Distinct) (reusable : NodesReusable M)
    (step : Clients.Step (transferProgram 0) ids.own s (.turn request rsp) t)
    (fed : Clients.Fed (transferProgram 0) (.turn request rsp) s) : Sound ids t := by
  cases step with
  | turn runs _ does =>
    exact sound.does distinct reusable does (fed.canDo runs sound.serviced.settled does)

/-! ## The handler -/

/-- Between the interrupt and its end. -/
structure Along (ids : PipeSems) (s₀ s : Clients M PipePlace PipeLog) : Prop where
  sound : Sound ids s
  runsOn : RunsOn s₀.system.kernel s.system.kernel
  elsewhere : ∀ p, p ≠ s₀.system.kernel.getCurrentPid → s.loc p = s₀.loc p

variable {s₀ : Clients M PipePlace PipeLog} {stage : Stage} {call : Transfer}

/-- One more thing is done, and the handler still runs. -/
theorem Along.goes (along : Along ids s₀ s) (rsp : Nat) (distinct : ids.Distinct)
    (reusable : NodesReusable M)
    (place : s.loc s₀.system.kernel.getCurrentPid = .running false stage call)
    (does : writePipe 0 stage call s.system.kernel.pipes s.shared = (deed, l, log))
    (token : ∀ id, deed = .wait id → 0 < (s.system.kernel.semaphores id).value) :
    ∃ t, Along ids s₀ t ∧ t.loc s₀.system.kernel.getCurrentPid = l ∧
      t.system.kernel.pipes = deed.pipes s.system.kernel.pipes ∧
      ∀ fuel, goOn s₀.system.kernel.getCurrentPid rsp (fuel + 1) s =
        goOn s₀.system.kernel.getCurrentPid rsp fuel t := by
  have sound := along.sound
  have settled := sound.serviced.settled
  have same := along.runsOn.getCurrentPid
  have goes : transferProgram 0 (.write 0 none 0) (s.loc s.system.kernel.getCurrentPid)
      s.system.kernel.pipes s.shared = some (deed, l, log) := by
    rw [same, place]
    exact congrArg some does
  have stays := pipeProgram_no_yield (pipeProgram_of_transfer goes)
  have mine := (pipeProgram_moves (pipeProgram_of_transfer goes)).2
  have able : CanDo deed s.system.kernel := fun id waits => .inl (token id waits)
  have runsOn : RunsOn s.system.kernel (deed.run rsp s.system.kernel) :=
    deed_runsOn settled reusable stays token
  refine ⟨after rsp deed l log s, ⟨sound.does distinct reusable goes able,
    along.runsOn.trans runsOn, ?_⟩, ?_, ?_, ?_⟩
  · intro p other
    refine Eq.trans ?_ (along.elsewhere p other)
    exact Function.update_of_ne (by rw [same]; exact other) _ _
  · unfold after
    rw [same]
    exact Function.update_self _ _ _
  · have named : (s.system.kernel.pipes 0).sems = ids := sound.tokens.named
    rw [named] at mine
    exact (sound.serviced.does rsp reusable mine able fun id mine => sound.tokens.bound mine).2.1
  · intro fuel
    have still := runsOn.getCurrentPid.trans same
    rw [goOn, place]
    dsimp only
    rw [does]
    dsimp only
    rw [if_pos still]
    unfold after
    rw [same]

/-- The process has given up the processor. -/
theorem goOn_stops {pid : Int} {n : Nat} (rsp : Nat) (place : s.loc pid = .running false stage call)
    (does : writePipe 0 stage call s.system.kernel.pipes s.shared = (deed, l, log))
    (gone : (deed.run rsp s.system.kernel).getCurrentPid ≠ pid) :
    goOn pid rsp (n + 1) s = ⟨{ s.system with kernel := deed.run rsp s.system.kernel },
      Function.update s.loc pid l, log⟩ := by
  rw [goOn, place]
  dsimp only
  rw [does]
  dsimp only
  exact if_neg gone

/-- With a token of the writers the handler puts its byte and returns. -/
theorem Along.writes (along : Along ids s₀ s) (rsp : Nat) (distinct : ids.Distinct)
    (reusable : NodesReusable M)
    (place : s.loc s₀.system.kernel.getCurrentPid = .running false .loop call)
    (first : call.i = 0) (one : call.size = 1)
    (token : 0 < (s.system.kernel.semaphores ids.writers).value) :
    ∃ t done pipe, goOn s₀.system.kernel.getCurrentPid rsp 6 s = t ∧ Along ids s₀ t ∧
      t.loc s₀.system.kernel.getCurrentPid = .returned false done done.bytes ∧
      (s.system.kernel.pipes 0).putByte (call.buffer 0) = some pipe ∧
      t.system.kernel.pipes = Function.update s.system.kernel.pipes 0 pipe := by
  have named : ∀ {t}, Along ids s₀ t → (t.system.kernel.pipes 0).sems = ids :=
    fun along => along.sound.tokens.named
  have more : (call.i : Int) < call.size := by
    rw [first, one]
    decide
  obtain ⟨s₁, along₁, place₁, pipes₁, fuel₁⟩ := along.goes rsp distinct reusable place
    (if_pos more) (by
      rintro id waits
      cases waits
      have writers : (s.system.kernel.pipes 0).semWriters = ids.writers :=
        congrArg PipeSems.writers (named along)
      rw [writers]
      exact token)
  obtain ⟨s₂, along₂, place₂, pipes₂, fuel₂⟩ := along₁.goes rsp distinct reusable place₁
    rfl (by
      rintro id waits
      cases waits
      have mutex : (s₁.system.kernel.pipes 0).mutex = ids.mutex :=
        congrArg PipeSems.mutex (named along₁)
      rw [mutex, along₁.sound.mutex_free (by rw [along₁.runsOn.getCurrentPid, place₁]; rfl)]
      exact Nat.one_pos)
  have space : (s₂.system.kernel.pipes 0).count < pipeBufferSize :=
    along₂.sound.tokens.writable along₂.sound.serviced.awake (by
      change (s₂.loc s₂.system.kernel.getCurrentPid).holdsRoom = true
      rw [along₂.runsOn.getCurrentPid, place₂]
      rfl)
  obtain ⟨pipe, put⟩ : ∃ pipe, (s₂.system.kernel.pipes 0).putByte (call.buffer call.i) = some pipe :=
    ⟨_, if_pos space⟩
  have puts : writePipe 0 .locked call s₂.system.kernel.pipes s₂.shared =
      (.pipe 0 fun _ => pipe, .running false .unlocking { call with bytes := call.bytes + 1 },
        { s₂.shared with put := s₂.shared.put ++ [call.buffer call.i] }) := by
    unfold writePipe
    dsimp only
    rw [put]
  obtain ⟨s₃, along₃, place₃, pipes₃, fuel₃⟩ := along₂.goes rsp distinct reusable place₂
    puts (fun _ never => nomatch never)
  obtain ⟨s₄, along₄, place₄, pipes₄, fuel₄⟩ := along₃.goes rsp distinct reusable place₃
    rfl (fun _ never => nomatch never)
  obtain ⟨s₅, along₅, place₅, pipes₅, fuel₅⟩ := along₄.goes rsp distinct reusable place₄
    rfl (fun _ never => nomatch never)
  obtain ⟨s₆, along₆, place₆, pipes₆, fuel₆⟩ := along₅.goes rsp distinct reusable place₅
    (if_neg (by
      dsimp only
      rw [first, one]
      decide)) (fun _ never => nomatch never)
  have before : s₂.system.kernel.pipes = s.system.kernel.pipes := pipes₂.trans pipes₁
  refine ⟨s₆, _, pipe, ?_, along₆, place₆, ?_, ?_⟩
  · rw [fuel₁, fuel₂, fuel₃, fuel₄, fuel₅, fuel₆]
    rfl
  · rw [← before]
    rw [first] at put
    exact put
  · rw [← before]
    exact pipes₆.trans (pipes₅.trans (pipes₄.trans pipes₃))

omit [MemoryManager M] in
theorem pipeProgram_idle {slot : Nat} (idle : l.idle = true) (request : PipeRequest)
    (pipes : Nat → Pipe) (log : PipeLog) :
    pipeProgram slot request l pipes log = enterPipe slot request pipes log := by
  cases l with
  | outside => rfl
  | returned _ _ _ => rfl
  | refused _ => rfl
  | running _ _ _ => cases idle
  | clearing _ => cases idle

/-- A byte that finds a token of the writers goes into the pipe, and nothing happens to the
interrupted process. -/
theorem Sound.adds (sound : Sound ids s) (distinct : ids.Distinct) (reusable : NodesReusable M)
    (rest : (s.loc s.system.kernel.getCurrentPid).idle = true) (byte : UInt8) (rsp : Nat)
    (token : 0 < (s.system.kernel.semaphores ids.writers).value) :
    Sound ids (addToBuffer byte rsp s) ∧ (addToBuffer byte rsp s).loc = s.loc ∧
      RunsOn s.system.kernel (addToBuffer byte rsp s).system.kernel ∧
      ∃ pipe, (s.system.kernel.pipes 0).putByte byte = some pipe ∧
        (addToBuffer byte rsp s).system.kernel.pipes =
          Function.update s.system.kernel.pipes 0 pipe := by
  have slot : pipeSlot 0 s.system.kernel.pipes = some 0 := if_pos sound.tokens.isOpen
  have enters : enterPipe 0 (.write 0 (some fun _ => byte) 1) s.system.kernel.pipes s.shared =
      some (.nothing, .running false .loop ⟨s.shared.calls, fun _ => byte, 1, 0, 0⟩,
        { s.shared with calls := s.shared.calls + 1 }) := if_pos slot
  have does : transferProgram 0 (.write 0 (some fun _ => byte) 1)
      (s.loc s.system.kernel.getCurrentPid) s.system.kernel.pipes s.shared = _ :=
    (pipeProgram_idle rest _ _ _).trans enters
  have along : Along ids s (after rsp .nothing
      (.running false .loop ⟨s.shared.calls, fun _ => byte, 1, 0, 0⟩)
      { s.shared with calls := s.shared.calls + 1 } s) :=
    ⟨sound.does distinct reusable does (fun _ never => nomatch never), .refl,
      fun p other => Function.update_of_ne other _ _⟩
  obtain ⟨t, done, pipe, goes, along, place, put, pipes⟩ := along.writes rsp distinct
    reusable (Function.update_self _ _ _) rfl rfl token
  have same := along.runsOn.getCurrentPid
  have result : addToBuffer byte rsp s = ⟨t.system, Function.update t.loc
      s.system.kernel.getCurrentPid (s.loc s.system.kernel.getCurrentPid), t.shared⟩ := by
    unfold addToBuffer
    dsimp only
    rw [enters]
    dsimp only
    unfold after at goes
    dsimp only [Deed.run] at goes
    rw [goes, place]
    exact if_pos rfl
  have back : Function.update t.loc s.system.kernel.getCurrentPid
      (s.loc s.system.kernel.getCurrentPid) = s.loc := by
    funext p
    rw [Function.update_apply]
    split
    · rename_i here
      rw [here]
    · exact along.elsewhere p ‹_›
  rw [result, back]
  refine ⟨⟨along.sound.serviced, ?_, sound.keeps, ?_, ?_⟩, rfl, along.runsOn, pipe, put, pipes⟩
  · have outside := PipePlace.idle_holds rest
    have returned : ((t.view).loc s.system.kernel.getCurrentPid) = _ := place
    have tokens := along.sound.tokens.internal (p := s.system.kernel.getCurrentPid)
      (l := s.loc s.system.kernel.getCurrentPid) (d := t.view.shared)
      along.sound.serviced.orderly (by rw [← same]; exact along.sound.serviced.awake) rfl
      (by rw [returned, outside.1]; rfl) (by rw [returned, outside.2.1]; rfl)
      (by rw [returned, outside.2.2]; rfl)
    have turned : t.view.turn s.system.kernel.getCurrentPid .internal
        (s.loc s.system.kernel.getCurrentPid) t.view.shared = Clients.view { t with loc := s.loc } := by
      unfold Parties.turn Clients.view
      dsimp only
      rw [back]
      rfl
    rw [turned] at tokens
    exact tokens
  · intro p holds
    exact (sound.locked p holds).trans same.symm
  · intro p busy
    have other : p ≠ s.system.kernel.getCurrentPid := by
      rintro rfl
      exact absurd rest (Bool.eq_false_iff.mp busy)
    have still : (t.loc p).idle = false := by
      rw [along.elsewhere p other]
      exact busy
    exact .inr ((along.sound.inside p still).resolve_left fun here => other (here.trans same))

/-! ## Keystrokes in a run -/

variable {a b : Terminal M} {k : Kernel M} {input : Input} {inputs : List Input} {code : UInt8}

/-- A byte finds a token of the writers; nobody who waits for a semaphore is named, nobody
inside a call is killed, and a read that has to wait finds the memory for it. -/
def Heedful (input : Input) (s : Terminal M) : Prop :=
  let k := s.clients.system.kernel
  match input with
  | .event label => SparesWaiters label.event k ∧
      ∀ pid, label.event.kills k = some pid → (s.clients.loc pid).idle = true
  | .turn request rsp => Clients.Fed (transferProgram 0) (.turn request rsp) s.clients
  | .key code _ =>
    match (s.keyboard.bufferWrite code).2 with
    | .ignored => True
    | .interrupt => SparesWaiters .ctrlC k ∧ (s.clients.loc k.getForegroundPid).idle = true
    | .byte _ => 0 < (k.semaphores (k.pipes 0).semWriters).value

/-- The keystroke puts one byte into the pipe or none, and the interrupted process keeps
the processor, its state and its queue. -/
structure Harmless (code : UInt8) (rsp : Nat) (s : Terminal M) : Prop where
  bytes : (s.press code rsp).clients.system.kernel.pipes = s.clients.system.kernel.pipes ∨
    ∃ byte pipe, (s.keyboard.bufferWrite code).2 = .byte byte ∧
      (s.clients.system.kernel.pipes 0).putByte byte = some pipe ∧
      (s.press code rsp).clients.system.kernel.pipes =
        Function.update s.clients.system.kernel.pipes 0 pipe
  runsOn : RunsOn s.clients.system.kernel (s.press code rsp).clients.system.kernel

/-- No process, idle included, is inside a call on the pipe, and nobody waits for its
semaphores. -/
structure Calm (s : Terminal M) : Prop where
  outside : ∀ p, p = 0 ∨ Living p s.clients.system.kernel → (s.clients.loc p).idle = true
  nobody : ∀ id, (s.clients.system.kernel.pipes 0).sems.own id →
    (s.clients.system.kernel.semaphores id).waiting = []

/-- The values of the semaphores agree with the pipe whenever it is calm. -/
def Balanced (s : Terminal M) : Prop :=
  let k := s.clients.system.kernel
  Calm s → (k.semaphores (k.pipes 0).semReaders).value = (k.pipes 0).count ∧
    (k.semaphores (k.pipes 0).semWriters).value = pipeBufferSize - (k.pipes 0).count

omit [MemoryManager M] in
theorem Sound.balances (sound : Sound ids s) (outside : ∀ p, (s.loc p).idle = true) :
    (s.system.kernel.semaphores (s.system.kernel.pipes 0).semReaders).value =
        (s.system.kernel.pipes 0).count ∧
      (s.system.kernel.semaphores (s.system.kernel.pipes 0).semWriters).value =
        pipeBufferSize - (s.system.kernel.pipes 0).count := by
  have named : (s.system.kernel.pipes 0).sems = ids := sound.tokens.named
  subst named
  have holds := fun p => PipePlace.idle_holds (outside p)
  exact ⟨sound.tokens.readers.rest fun p => (holds p).1,
    sound.tokens.writers.rest fun p => (holds p).2.1⟩

omit [MemoryManager M] in
theorem Sound.balanced (sound : Sound ids a.clients) : Balanced a := by
  intro calm
  apply sound.balances
  intro p
  by_contra busy
  have settled := sound.serviced.settled
  have out : ¬ (p = 0 ∨ Living p a.clients.system.kernel) := fun known => busy (calm.outside p known)
  rcases sound.inside p (Bool.eq_false_iff.mpr busy) with here | living
  · rw [settled.table.getCurrentPid] at here
    rcases settled.scheduled with idle | ready
    · rw [idle, settled.table.idle.2] at here
      exact out (.inl here)
    · exact out (.inr ⟨readyQueue, by decide, _, ready, here.symm⟩)
  · exact out (.inr living)

theorem press_clients (code : UInt8) (rsp : Nat) (s : Terminal M) :
    (s.press code rsp).clients = match (s.keyboard.bufferWrite code).2 with
      | .ignored => s.clients
      | .interrupt =>
        ⟨s.clients.system.endProcess s.clients.system.kernel.getForegroundPid 1 rsp, s.clients.loc,
          s.clients.shared⟩
      | .byte byte => addToBuffer byte rsp s.clients := by
  unfold Terminal.press
  generalize s.keyboard.bufferWrite code = result
  obtain ⟨keyboard, keystroke⟩ := result
  cases keystroke with
  | ignored => rfl
  | interrupt => rfl
  | byte byte => rfl

/-- A heedful keystroke, and what it does if it is not Ctrl+C. -/
theorem Sound.press (sound : Sound ids a.clients) (distinct : ids.Distinct)
    (reusable : NodesReusable M) (rest : a.AtRest) (heedful : Heedful (.key code rsp) a) :
    Sound ids (a.press code rsp).clients ∧
      ((a.keyboard.bufferWrite code).2 ≠ .interrupt → Harmless code rsp a) := by
  have writers : (a.clients.system.kernel.pipes 0).semWriters = ids.writers :=
    congrArg PipeSems.writers sound.tokens.named
  have clients := press_clients code rsp a
  unfold Heedful at heedful
  dsimp only at heedful
  cases keystroke : (a.keyboard.bufferWrite code).2 with
  | ignored =>
    rw [keystroke] at clients
    dsimp only at clients
    rw [clients]
    refine ⟨sound, fun _ => ⟨?_, ?_⟩⟩
    · rw [clients]
      exact .inl rfl
    · rw [clients]
      exact .refl
  | interrupt =>
    rw [keystroke] at clients heedful
    dsimp only at clients heedful
    rw [clients]
    refine ⟨?_, fun never => absurd rfl never⟩
    have dies : System.Step a.clients.system ⟨.ctrlC, rsp⟩ _ := .ctrlC
    have avoids : Clients.Avoids ids.own (⟨.ctrlC, rsp⟩ : Label).event := trivial
    refine sound.event reusable rest avoids dies heedful.1 ?_
    intro pid named
    cases named
    exact heedful.2
  | byte byte =>
    rw [keystroke] at clients heedful
    dsimp only at clients heedful
    rw [writers] at heedful
    obtain ⟨kept, _, runsOn, pipe, put, pipes⟩ := sound.adds distinct reusable rest byte rsp heedful
    rw [clients]
    refine ⟨kept, fun _ => ⟨?_, ?_⟩⟩
    · rw [clients]
      exact .inr ⟨byte, pipe, keystroke, put, pipes⟩
    · rw [clients]
      exact runsOn

theorem Step.sound (step : Step ids.own a input b) (distinct : ids.Distinct)
    (reusable : NodesReusable M) (heedful : Heedful input a) (sound : Sound ids a.clients) :
    Sound ids b.clients := by
  cases step with
  | event rest avoids step => exact sound.event reusable rest avoids step heedful.1 heedful.2
  | turn step => exact sound.turn distinct reusable step heedful
  | key rest => exact (sound.press distinct reusable rest heedful).1

theorem start_sound (booted : Booted k) : Sound (k.pipes 0).sems (start k).clients := by
  obtain ⟨shell, first⟩ := booted.start
  have fresh := booted.pipes.shell
  exact ⟨⟨first.settled, started_lists first, fun id _ => (first.quiet id).1, fresh.opened⟩,
    (fresh.exact (s := (start k).clients) (fun _ => rfl) rfl).tokens, (fun _ _ never => nomatch never),
    (fun _ never => nomatch never), (fun _ never => nomatch never)⟩

/-- In every run whose steps are heedful, the pipe is balanced whenever it is calm, and a
keystroke that finds a token of the writers disturbs nobody. -/
theorem keystrokes_disturb_nobody (reusable : NodesReusable M) (booted : Booted k)
    (run : Run (fun a input b => Step (k.pipes 0).sems.own a input b ∧ Heedful input a)
      (start k) inputs a) :
    Balanced a ∧ ∀ code rsp, a.AtRest → Heedful (.key code rsp) a →
      (a.keyboard.bufferWrite code).2 ≠ .interrupt → Harmless code rsp a := by
  have distinct := booted.pipes.shell.distinct
  have sound : Sound (k.pipes 0).sems a.clients :=
    run.preserves (fun a => Sound (k.pipes 0).sems a.clients)
      (fun before step => step.1.sound distinct reusable step.2 before) (start_sound booted)
  exact ⟨sound.balanced, fun code rsp rest heedful =>
    (sound.press distinct reusable rest heedful).2⟩

/-! ## Running it -/

instance (s : Terminal M) : Decidable s.AtRest := inferInstanceAs (Decidable (_ = true))

/-- The next state, where the step is possible. -/
def next (own : Int → Prop) [DecidablePred own] (input : Input) (s : Terminal M) :
    Option (Terminal M) :=
  match input with
  | .event label =>
    if s.AtRest ∧ Clients.Avoids own label.event then
      (s.clients.system.next label).map fun t =>
        { s with clients := { s.clients with system := t } }
    else none
  | .turn request rsp =>
    (s.clients.next (transferProgram 0) own (.turn request rsp)).map fun t =>
      { s with clients := t }
  | .key code rsp => if s.AtRest then some (s.press code rsp) else none

/-- Run the inputs, each under a guard. -/
def exec (own : Int → Prop) [DecidablePred own] (guard : Input → Terminal M → Prop)
    [∀ input s, Decidable (guard input s)] : List Input → Terminal M → Option (Terminal M)
  | [], s => some s
  | input :: inputs, s =>
    if guard input s then (next own input s).bind (exec own guard inputs) else none

theorem step_of_next {own : Int → Prop} [DecidablePred own] (found : next own input a = some b) :
    Step own a input b := by
  unfold next at found
  cases input with
  | event label =>
    dsimp only at found
    split at found
    · rename_i guard
      obtain ⟨t, step, rfl⟩ := Option.map_eq_some_iff.mp found
      exact .event guard.1 guard.2 (System.step_of_next step)
    · cases found
  | turn request rsp =>
    obtain ⟨t, step, rfl⟩ := Option.map_eq_some_iff.mp found
    exact .turn (Clients.step_of_next step)
  | key code rsp =>
    dsimp only at found
    split at found
    · cases found
      exact .key ‹_›
    · cases found

theorem run_of_exec {own : Int → Prop} [DecidablePred own] {guard : Input → Terminal M → Prop}
    [∀ input s, Decidable (guard input s)] (found : exec own guard inputs a = some b) :
    Run (fun a input b => Step own a input b ∧ guard input a) a inputs b := by
  induction inputs generalizing a with
  | nil =>
    cases found
    exact .nil
  | cons input inputs ih =>
    unfold exec at found
    split at found
    · rename_i guarded
      obtain ⟨middle, first, rest⟩ := Option.bind_eq_some_iff.mp found
      exact .cons ⟨step_of_next first, guarded⟩ (ih rest)
    · cases found

/-- Nobody is killed, blocked or woken by hand, and bytes find tokens. -/
def Plain (input : Input) (s : Terminal M) : Prop :=
  match input with
  | .event label => Audited.inScope label.event = true
  | .turn _ _ => True
  | .key code _ => (s.keyboard.bufferWrite code).2 ≠ .interrupt ∧
      0 < (s.clients.system.kernel.semaphores (s.clients.system.kernel.pipes 0).semWriters).value

instance (input : Input) (s : Terminal M) : Decidable (Plain input s) := by
  unfold Plain
  split <;> infer_instance

theorem Plain.heedful (plain : Plain input a) (succeeds : AllocSucceeds M) : Heedful input a := by
  cases input with
  | event label =>
    refine ⟨.of_inScope plain, ?_⟩
    intro pid kills
    obtain ⟨event, rsp⟩ := label
    cases event with
    | ctrlC => cases plain
    | timerTick => cases kills
    | resume => cases kills
    | call call =>
      cases call with
      | kill _ _ => cases plain
      | _ => cases kills
  | turn request rsp =>
    unfold Heedful
    exact Clients.fed_of_succeeds succeeds
  | key code rsp =>
    unfold Heedful
    dsimp only
    split
    · trivial
    · rename_i interrupt
      exact absurd interrupt plain.1
    · exact plain.2

/-- The shell gets a key and reads it. -/
def typing : List Input :=
  [.event ⟨.timerTick, 0⟩, .key 0x1E 100] ++
    List.replicate 7 (.turn (.read 0 (some fun _ => 0) 1) 200)

theorem keystrokes_disturb_nobody_shell : ∃ a : Terminal Bump,
    Run (fun a input b => Step (Bump.kernel.pipes 0).sems.own a input b ∧ Heedful input a)
      (start Bump.kernel) typing a ∧ Balanced a ∧
      ∀ code rsp, a.AtRest → Heedful (.key code rsp) a →
        (a.keyboard.bufferWrite code).2 ≠ .interrupt → Harmless code rsp a := by
  have run := (run_of_exec (Option.some_get (show (exec (Bump.kernel.pipes 0).sems.own Plain typing
    (start Bump.kernel)).isSome = true by decide +kernel)).symm).mono fun step =>
      And.intro step.1 (step.2.heedful Bump.allocSucceeds)
  exact ⟨_, run, keystrokes_disturb_nobody Bump.nodesReusable Bump.booted run⟩

/-! ## A full pipe -/

/-- While nobody is inside a call, keys fill the pipe. -/
theorem Sound.fills (distinct : ids.Distinct) (reusable : NodesReusable M) {n : Nat}
    (sound : Sound ids a.clients) (outside : ∀ p, (a.clients.loc p).idle = true)
    (released : a.keyboard = ⟨false, false, false⟩)
    (room : (a.clients.system.kernel.pipes 0).count + n ≤ pipeBufferSize) :
    ∃ inputs b, Run (Step ids.own) a inputs b ∧ Sound ids b.clients ∧
      b.clients.loc = a.clients.loc ∧ b.keyboard = ⟨false, false, false⟩ ∧
      (b.clients.system.kernel.pipes 0).count = (a.clients.system.kernel.pipes 0).count + n ∧
      RunsOn a.clients.system.kernel b.clients.system.kernel := by
  induction n generalizing a with
  | zero => exact ⟨[], a, .nil, sound, rfl, released, rfl, .refl⟩
  | succ n ih =>
    have key : a.keyboard.bufferWrite 0x1E = (⟨false, false, false⟩, .byte 97) := by
      rw [released]
      decide
    have pressed : a.press 0x1E 0 = ⟨addToBuffer 97 0 a.clients, ⟨false, false, false⟩⟩ := by
      unfold Terminal.press
      rw [key]
    have token : 0 < (a.clients.system.kernel.semaphores ids.writers).value := by
      have writers : (a.clients.system.kernel.pipes 0).semWriters = ids.writers :=
        congrArg PipeSems.writers sound.tokens.named
      rw [← writers, (sound.balances outside).2]
      omega
    obtain ⟨kept, loc, runsOn, pipe, put, pipes⟩ := sound.adds distinct reusable (outside _) 97 0 token
    have count : ((addToBuffer 97 0 a.clients).system.kernel.pipes 0).count =
        (a.clients.system.kernel.pipes 0).count + 1 := by
      rw [pipes, Function.update_self]
      exact congrArg Ring.count (Pipe.putByte_eq_some put).2.1
    obtain ⟨inputs, b, run, after, same, still, filled, more⟩ :=
      ih (a := ⟨addToBuffer 97 0 a.clients, ⟨false, false, false⟩⟩) kept
        (fun p => by rw [loc]; exact outside p) rfl (by dsimp only; omega)
    refine ⟨.key 0x1E 0 :: inputs, b, .cons ?_ run, after, same.trans loc, still, ?_,
      runsOn.trans more⟩
    · rw [← pressed]
      exact .key (outside _)
    · dsimp only at filled
      omega

/-- Without a token of the writers the interrupted process falls asleep. -/
theorem Sound.falls_asleep (sound : Sound ids s) (reusable : NodesReusable M) (byte : UInt8)
    (rsp : Nat)
    (ready : s.system.kernel.processes.currentProcess ∈ s.system.kernel.items readyQueue)
    (empty : (s.system.kernel.semaphores ids.writers).value = 0) (room : s.system.kernel.HasRoom) :
    s.system.kernel.processes.currentProcess ∈
      (addToBuffer byte rsp s).system.kernel.items blockedQueueBySem := by
  have settled := sound.serviced.settled
  have table := settled.table
  have writers : (s.system.kernel.pipes 0).semWriters = ids.writers :=
    congrArg PipeSems.writers sound.tokens.named
  have after : Settled (semWait ids.writers rsp s.system.kernel).2 := settled.semWait reusable
  have sleeps : Relocates s.system.kernel.processes.currentProcess blockedQueueBySem
      s.system.kernel (semWait ids.writers rsp s.system.kernel).2 := by
    have waited := (semWait_waited ids.writers rsp reusable settled ready).1
    have opened := (sound.serviced.opened ids.writers (.inr (.inl rfl))).2
    cases waited with
    | taken _ token _ _ => exact absurd empty (Nat.ne_of_gt token)
    | failed _ _ missing _ _ => exact absurd room missing
    | queued _ _ _ _ relocates => exact relocates
    | forgotten _ _ missing _ _ => exact (missing.elim opened fun fails => fails room).elim
  have asleep : s.system.kernel.processes.currentProcess ∈
      (semWait ids.writers rsp s.system.kernel).2.items blockedQueueBySem :=
    sleeps.items.mpr (.inr ⟨rfl, rfl⟩)
  have gone : (semWait ids.writers rsp s.system.kernel).2.getCurrentPid ≠
      s.system.kernel.getCurrentPid := by
    rw [after.table.getCurrentPid, table.getCurrentPid, ← sleeps.pid]
    intro same
    exact after.current_ne asleep (by decide)
      (after.table.pidUnique after.table.current (after.table.queued asleep) same)
  have slot : pipeSlot 0 s.system.kernel.pipes = some 0 := if_pos sound.tokens.isOpen
  have enters : enterPipe 0 (.write 0 (some fun _ => byte) 1) s.system.kernel.pipes s.shared =
      some (.nothing, .running false .loop ⟨s.shared.calls, fun _ => byte, 1, 0, 0⟩,
        { s.shared with calls := s.shared.calls + 1 }) := if_pos slot
  obtain ⟨entered, inside⟩ : ∃ entered : Clients M PipePlace PipeLog, entered = ⟨s.system,
      Function.update s.loc s.system.kernel.getCurrentPid
        (.running false .loop ⟨s.shared.calls, fun _ => byte, 1, 0, 0⟩),
      { s.shared with calls := s.shared.calls + 1 }⟩ := ⟨_, rfl⟩
  have system : entered.system = s.system := by rw [inside]
  have more : ((0 : Nat) : Int) < 1 := by decide
  have place : entered.loc s.system.kernel.getCurrentPid =
      .running false .loop ⟨s.shared.calls, fun _ => byte, 1, 0, 0⟩ := by
    rw [inside]
    exact Function.update_self _ _ _
  have waits : writePipe 0 .loop ⟨s.shared.calls, fun _ => byte, 1, 0, 0⟩
      entered.system.kernel.pipes entered.shared = (.wait ids.writers,
        .running false .admitted ⟨s.shared.calls, fun _ => byte, 1, 0, 0⟩, entered.shared) := by
    unfold writePipe
    dsimp only
    rw [← writers, system, if_pos more]
  have stops := goOn_stops (n := 5) rsp place waits (by rw [system]; exact gone)
  unfold addToBuffer
  dsimp only
  rw [enters]
  dsimp only
  rw [← inside, stops]
  dsimp only
  rw [if_neg (by rw [Function.update_self]; exact fun never => nomatch never), system]
  exact asleep

theorem start_tick (own : Int → Prop) (k : Kernel M) : Step own (start k) (.event ⟨.timerTick, 0⟩)
    ⟨⟨{ started k with kernel := callTimerTick 0 k }, fun _ => .outside, .empty⟩,
      ⟨false, false, false⟩⟩ :=
  .event rfl trivial .timerTick

/-- Nobody reads: the key after the hundredth puts the shell to sleep. -/
theorem full_pipe_disturbs : ¬ ∀ inputs (a : Terminal Bump),
    Run (Step (Bump.kernel.pipes 0).sems.own) (start Bump.kernel) inputs a →
      Balanced a ∧ ∀ code rsp, a.AtRest → (a.keyboard.bufferWrite code).2 ≠ .interrupt →
        Harmless code rsp a := by
  intro never
  have reusable := Bump.nodesReusable
  have distinct := (Booted.pipes Bump.booted).shell.distinct
  obtain ⟨a, ticked⟩ : ∃ a : Terminal Bump, a = ⟨⟨{ started Bump.kernel with
      kernel := callTimerTick 0 Bump.kernel }, fun _ => .outside, .empty⟩, ⟨false, false, false⟩⟩ :=
    ⟨_, rfl⟩
  have tick : Step (Bump.kernel.pipes 0).sems.own (start Bump.kernel) (.event ⟨.timerTick, 0⟩) a := by
    rw [ticked]
    exact start_tick _ _
  have sound := tick.sound distinct reusable ⟨trivial, fun _ never => nomatch never⟩
    (start_sound Bump.booted)
  have empty : (a.clients.system.kernel.pipes 0).count = 0 := by
    rw [ticked]
    decide +kernel
  have ready : a.clients.system.kernel.processes.currentProcess ∈
      a.clients.system.kernel.items readyQueue := by
    rw [ticked]
    decide +kernel
  obtain ⟨inputs, b, run, sound, loc, keyboard, count, runsOn⟩ := sound.fills distinct reusable
    (n := 100) (fun p => by rw [ticked]; rfl) (by rw [ticked]) (by rw [empty]; decide)
  have outside : ∀ p, (b.clients.loc p).idle = true := by
    intro p
    rw [loc, ticked]
    rfl
  have writers : (b.clients.system.kernel.pipes 0).semWriters = (Bump.kernel.pipes 0).sems.writers :=
    congrArg PipeSems.writers sound.tokens.named
  have full : (b.clients.system.kernel.semaphores (Bump.kernel.pipes 0).sems.writers).value = 0 := by
    rw [← writers, (sound.balances outside).2, count, empty]
    rfl
  have queued : b.clients.system.kernel.processes.currentProcess ∈
      b.clients.system.kernel.items readyQueue := by
    rw [runsOn.current]
    exact (runsOn.items readyQueue).mpr ready
  have key : b.keyboard.bufferWrite 0x1E = (⟨false, false, false⟩, .byte 97) := by
    rw [keyboard]
    decide
  have asleep := sound.falls_asleep reusable 97 0 queued full
    (hasRoom Bump.allocSucceeds)
  have harmless := (never _ b (.cons tick run)).2 0x1E 0 (outside _) (by rw [key]; decide)
  have clients := press_clients 0x1E 0 b
  rw [key] at clients
  have still := (harmless.runsOn.items blockedQueueBySem).mp (by rw [clients]; exact asleep)
  exact absurd (sound.serviced.settled.table.exclusive.unique still queued) (by decide)

end Terminal
end SoKernel
