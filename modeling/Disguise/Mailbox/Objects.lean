import Disguise.Mailbox.Served

/-!
# Shared-memory objects and their name

The mailbox is a shared-memory object with a name. `main` of the host opens the object of that name
or creates one, `usim::init` maps the object that has the name at that moment, if there is one, and
`cleanup`, the signal handler of the host, removes the name. An object stays as it is while a
process maps it, so that a new host and an old UE can have different objects.

Seen from one object, a run of the processes is a run of the mailbox (`reaches_view`), in which the
processes that map other objects do not occur. If the host is ended by a signal, the UE process that
shares its object is cut off for good: no host ever writes a response for it
(`signalled_host_strands_ue`).

Not modelled: calls of `shm_open`, `ftruncate` and `mmap` that fail for other reasons than the
missing name.
-/

set_option autoImplicit false
set_option relaxedAutoImplicit false

namespace Disguise.Mailbox

open Authentication Authentication.Ue Memory Milenage Process Process.Program Relation

/-! ### States and steps -/

/-- The object that has the name, the contents of all objects, the number of those that have been
created, and the processes with the objects they map. -/
structure ObjectState where
  named : Option ℕ
  contents : ℕ → SharedData
  created : ℕ
  ue : Option (UeProcess × Option ℕ)
  host : Option (HostProcess × ℕ)

/-- `usim::init`, as far as the pointer `shared_data` goes. -/
def Usim.mapping (usim : Usim) (named : Option ℕ) : Usim :=
  { usim with sharedData := if named.isSome then .mapped else .mapFailed }

section Steps

variable (srsran : Srsran) (aes : Block → Block → Block) (k : Block)

/-- A step of the processes and their objects. -/
inductive ObjectStep : ObjectState → ObjectState → Prop where
  /-- A UE process is started and maps the object that has the name. -/
  | ueStarts (state : ObjectState) (usim : Usim) (hnone : state.ue = none)
      (hfirst : usim.fpgaInitialized = false) :
      ObjectStep state
        { state with ue := some (⟨Usim.mapping usim state.named, none⟩, state.named) }
  | ueCalls (state : ObjectState) (usim : Usim) (mapped : Option ℕ) (outputs : Outputs)
      (rand autnEnb : Block) (hue : state.ue = some (⟨usim, none⟩, mapped)) :
      ObjectStep state
        { state with ue := some (⟨usim, some ⟨rand, autnEnb,
          genAuthResMilenageVsim srsran usim outputs rand autnEnb, []⟩⟩, mapped) }
  | ueAccesses (state : ObjectState) (usim : Usim) (call : UeCall) (object : ℕ)
      (after : SharedData) (access : Access Content)
      (rest : MailboxProgram (AuthResult × Outputs × Usim))
      (hue : state.ue = some (⟨usim, some call⟩, some object))
      (hstep : Step call.rest (state.contents object) access rest after) :
      ObjectStep state
        { state with
          contents := Function.update state.contents object after
          ue := some (⟨usim, some { call with rest, trace := call.trace ++ [access] }⟩,
            some object) }
  | ueReturns (state : ObjectState) (usim : Usim) (call : UeCall) (mapped : Option ℕ)
      (result : AuthResult × Outputs × Usim) (hue : state.ue = some (⟨usim, some call⟩, mapped))
      (hdone : call.rest = .done result) :
      ObjectStep state { state with ue := some (⟨result.2.2, none⟩, mapped) }
  | ueEnds (state : ObjectState) : ObjectStep state { state with ue := none }
  /-- A host process is started and opens the object that has the name. -/
  | hostOpens (state : ObjectState) (object : ℕ) (world : Enclave.World)
      (hnone : state.host = none) (hnamed : state.named = some object) :
      ObjectStep state { state with host := some (⟨world, resetFlags⟩, object) }
  /-- A host process is started and creates an object of zeros. -/
  | hostCreates (state : ObjectState) (world : Enclave.World) (hnone : state.host = none)
      (hnamed : state.named = none) :
      ObjectStep state
        { state with
          named := some state.created
          contents := Function.update state.contents state.created newObject
          created := state.created + 1
          host := some (⟨world, resetFlags⟩, state.created) }
  | hostAccesses (state : ObjectState) (host : HostProcess) (object : ℕ) (after : SharedData)
      (access : Access Content) (rest : MailboxProgram Phase)
      (hhost : state.host = some (host, object))
      (hstep : Step host.rest (state.contents object) access rest after) :
      ObjectStep state
        { state with
          contents := Function.update state.contents object after
          host := some ({ host with rest := resume aes k host.world rest }, object) }
  /-- The host process ends without running `cleanup`. -/
  | hostEnds (state : ObjectState) : ObjectStep state { state with host := none }
  /-- The host process is ended by a signal and runs `cleanup`. -/
  | hostSignalled (state : ObjectState) (host : HostProcess) (object : ℕ)
      (hhost : state.host = some (host, object)) :
      ObjectStep state { state with host := none, named := none }

/-! ### The view from one object -/

/-- The UE process, if it maps the object. -/
def ueAt (object : ℕ) (ue : Option (UeProcess × Option ℕ)) : Option UeProcess :=
  ue.bind fun (process, mapped) ↦ if mapped = some object then some process else none

/-- The host process, if it maps the object. -/
def hostAt (object : ℕ) (host : Option (HostProcess × ℕ)) : Option HostProcess :=
  host.bind fun (process, mapped) ↦ if mapped = object then some process else none

/-- The mailbox system of an object: its contents, and the processes that map it. -/
def view (state : ObjectState) (object : ℕ) : SystemState where
  memory := state.contents object
  ue := ueAt object state.ue
  host := hostAt object state.host

theorem ueAt_mapped (process : UeProcess) (object : ℕ) :
    ueAt object (some (process, some object)) = some process :=
  if_pos rfl

theorem ueAt_other (process : UeProcess) {mapped : Option ℕ} {object : ℕ}
    (hother : mapped ≠ some object) : ueAt object (some (process, mapped)) = none :=
  if_neg hother

theorem hostAt_mapped (process : HostProcess) (object : ℕ) :
    hostAt object (some (process, object)) = some process :=
  if_pos rfl

theorem hostAt_other (process : HostProcess) {mapped object : ℕ} (hother : mapped ≠ object) :
    hostAt object (some (process, mapped)) = none :=
  if_neg hother

/-- Objects that have not been created are zero, and nobody knows them. -/
structure Created (state : ObjectState) : Prop where
  contents : ∀ object, state.created ≤ object → state.contents object = newObject
  named : ∀ object, state.named = some object → object < state.created
  ue : ∀ process object, state.ue = some (process, some object) → object < state.created
  host : ∀ process object, state.host = some (process, object) → object < state.created

variable {srsran aes k} {before after : ObjectState}

theorem Created.step (hcreated : Created before) (hstep : ObjectStep srsran aes k before after) :
    Created after := by
  obtain ⟨hcontents, hnamed, hue, hhost⟩ := hcreated
  have hchanged {object : ℕ} (memory : SharedData) (hobject : object < before.created) (other : ℕ)
      (hother : before.created ≤ other) :
      Function.update before.contents object memory other = newObject := by
    rw [Function.update_of_ne (by omega)]
    exact hcontents other hother
  cases hstep with
  | ueStarts usim hnone hfirst =>
    refine ⟨hcontents, hnamed, ?_, hhost⟩
    rintro process object hprocess
    obtain ⟨-, hobject⟩ := Prod.mk.inj (Option.some_inj.mp hprocess)
    exact hnamed object hobject
  | ueCalls usim mapped outputs rand autnEnb hprocess =>
    refine ⟨hcontents, hnamed, ?_, hhost⟩
    rintro _ object ⟨⟩
    exact hue _ object hprocess
  | ueAccesses usim call object memory access rest hprocess hstep =>
    refine ⟨hchanged memory (hue _ object hprocess), hnamed, ?_, hhost⟩
    rintro _ _ ⟨⟩
    exact hue _ object hprocess
  | ueReturns usim call mapped result hprocess hdone =>
    refine ⟨hcontents, hnamed, ?_, hhost⟩
    rintro _ object ⟨⟩
    exact hue _ object hprocess
  | ueEnds =>
    refine ⟨hcontents, hnamed, ?_, hhost⟩
    rintro _ _ ⟨⟩
  | hostOpens object world hnone hname =>
    refine ⟨hcontents, hnamed, hue, ?_⟩
    rintro _ _ ⟨⟩
    exact hnamed _ hname
  | hostCreates world hnone hname =>
    refine ⟨?_, ?_, ?_, ?_⟩
    · intro object hobject
      show Function.update before.contents before.created newObject object = newObject
      rw [Function.update_of_ne (Nat.ne_of_gt hobject)]
      exact hcontents object (Nat.le_of_succ_le hobject)
    · rintro _ ⟨⟩
      exact Nat.lt_succ_self _
    · intro process object hprocess
      exact (hue process object hprocess).trans (Nat.lt_succ_self _)
    · rintro _ _ ⟨⟩
      exact Nat.lt_succ_self _
  | hostAccesses host object memory access rest hprocess hstep =>
    refine ⟨hchanged memory (hhost _ object hprocess), hnamed, hue, ?_⟩
    rintro _ _ ⟨⟩
    exact hhost _ object hprocess
  | hostEnds =>
    refine ⟨hcontents, hnamed, hue, ?_⟩
    rintro _ _ ⟨⟩
  | hostSignalled host object hprocess =>
    refine ⟨hcontents, ?_, hue, ?_⟩
    · rintro _ ⟨⟩
    · rintro _ _ ⟨⟩

/-- The start without processes, with the objects that were created before. -/
def initialObjects (named : Option ℕ) (contents : ℕ → SharedData) (created : ℕ) : ObjectState :=
  ⟨named, contents, created, none, none⟩

/-- A step of a UE process is a step of the system of its object, and no step of the others. -/
theorem view_ueStep {object : ℕ} {state : ObjectState} {process next : UeProcess}
    {mapped : Option ℕ} (hue : state.ue = some (process, mapped))
    (hstep : ∀ memory host, SystemStep srsran aes k ⟨memory, some process, host⟩
      ⟨memory, some next, host⟩) :
    view { state with ue := some (next, mapped) } object = view state object ∨
      SystemStep srsran aes k (view state object)
        (view { state with ue := some (next, mapped) } object) := by
  rw [view, view, hue]
  by_cases hmapped : mapped = some object
  · subst hmapped
    rw [ueAt_mapped, ueAt_mapped]
    exact Or.inr (hstep _ _)
  · rw [ueAt_other _ hmapped, ueAt_other _ hmapped]
    exact Or.inl rfl

/-- Seen from one object, a step is a step of its mailbox, or nothing happens. -/
theorem view_step (hcreated : Created before) (hstep : ObjectStep srsran aes k before after)
    (object : ℕ) : view after object = view before object ∨
      SystemStep srsran aes k (view before object) (view after object) := by
  cases hstep with
  | ueStarts usim hnone hfirst =>
    rw [view, view, hnone]
    by_cases hnamed : before.named = some object
    · rw [hnamed, ueAt_mapped]
      exact Or.inr (.ueStarts _ _ _ hfirst)
    · rw [ueAt_other _ hnamed]
      exact Or.inl rfl
  | ueCalls usim mapped outputs rand autnEnb hue =>
    exact view_ueStep hue fun memory host ↦ .ueCalls memory host usim outputs rand autnEnb
  | ueAccesses usim call mapped memory access rest hue hstep =>
    rw [view, view, hue]
    dsimp only
    by_cases hmapped : mapped = object
    · subst hmapped
      rw [ueAt_mapped, ueAt_mapped, Function.update_self]
      exact Or.inr (.ueAccesses _ _ _ _ _ _ _ hstep)
    · have hother : some mapped ≠ some object := fun hsome ↦ hmapped (Option.some_inj.mp hsome)
      rw [ueAt_other _ hother, ueAt_other _ hother, Function.update_of_ne (Ne.symm hmapped)]
      exact Or.inl rfl
  | ueReturns usim call mapped result hue hdone =>
    exact view_ueStep hue fun memory host ↦ .ueReturns memory host usim call result hdone
  | ueEnds =>
    rw [view, view]
    cases hue : ueAt object before.ue with
    | none => exact Or.inl rfl
    | some process => exact Or.inr (.ueEnds _ _ process)
  | hostOpens mapped world hnone hnamed =>
    rw [view, view, hnone]
    by_cases hmapped : mapped = object
    · subst hmapped
      rw [hostAt_mapped]
      exact Or.inr (.hostStarts _ _ world)
    · rw [hostAt_other _ hmapped]
      exact Or.inl rfl
  | hostCreates world hnone hnamed =>
    rw [view, view, hnone]
    dsimp only
    by_cases hmapped : before.created = object
    · subst hmapped
      rw [hostAt_mapped, Function.update_self, hcreated.contents _ le_rfl]
      exact Or.inr (.hostStarts _ _ world)
    · rw [hostAt_other _ hmapped, Function.update_of_ne (Ne.symm hmapped)]
      exact Or.inl rfl
  | hostAccesses host mapped memory access rest hhost hstep =>
    rw [view, view, hhost]
    dsimp only
    by_cases hmapped : mapped = object
    · subst hmapped
      rw [hostAt_mapped, hostAt_mapped, Function.update_self]
      exact Or.inr (.hostAccesses _ _ _ _ _ _ hstep)
    · rw [hostAt_other _ hmapped, hostAt_other _ hmapped,
        Function.update_of_ne (Ne.symm hmapped)]
      exact Or.inl rfl
  | hostEnds =>
    rw [view, view]
    cases hhost : hostAt object before.host with
    | none => exact Or.inl rfl
    | some process => exact Or.inr (.hostEnds _ _ process)
  | hostSignalled host mapped hhost =>
    rw [view, view]
    cases hseen : hostAt object before.host with
    | none => exact Or.inl rfl
    | some process => exact Or.inr (.hostEnds _ _ process)

/-- Runs keep count of the objects, and what one object sees of them are runs of its mailbox. -/
theorem reaches_view (hcreated : Created before)
    (hrun : ReflTransGen (ObjectStep srsran aes k) before after) :
    Created after ∧ ∀ object,
      ReflTransGen (SystemStep srsran aes k) (view before object) (view after object) := by
  induction hrun with
  | refl => exact ⟨hcreated, fun object ↦ .refl⟩
  | tail _ hstep ih =>
    obtain ⟨hcreated, hreaches⟩ := ih
    refine ⟨hcreated.step hstep, fun object ↦ ?_⟩
    rcases view_step hcreated hstep object with hsame | hsystem
    · rw [hsame]
      exact hreaches object
    · exact (hreaches object).tail hsystem

/-! ### A host that is ended by a signal -/

/-- A UE process maps an object that no host process maps, and that has no name any more. What the
object holds of an answer is the same as before. -/
structure Stranded (object : ℕ) (memory : SharedData) (state : ObjectState) : Prop where
  created : object < state.created
  named : state.named ≠ some object
  host : ∀ process mapped, state.host = some (process, mapped) → mapped ≠ object
  ue : ∃ process left, state.ue = some (process, some object) ∧ UeCredit (some process) left
  answer : SameAnswer memory (state.contents object)

/-- A UE process stays cut off until it ends. -/
theorem Stranded.step {object : ℕ} {memory : SharedData} (hstranded : Stranded object memory before)
    (hstep : ObjectStep srsran aes k before after) (halive : after.ue ≠ none) :
    Stranded object memory after := by
  obtain ⟨hcreated, hnamed, hhost, ⟨process, left, hue, hcredit⟩, hanswer⟩ := hstranded
  cases hstep with
  | ueStarts usim hnone hfirst =>
    rw [hnone] at hue
    cases hue
  | ueCalls usim mapped outputs rand autnEnb hcalled =>
    obtain ⟨-, rfl⟩ := Prod.mk.inj (Option.some_inj.mp (hcalled.symm.trans hue))
    exact ⟨hcreated, hnamed, hhost, ⟨_, _, rfl, .calling (ueStage_start srsran usim outputs rand
      autnEnb)⟩, hanswer⟩
  | ueAccesses usim call mapped changed access rest haccessed hstep =>
    obtain ⟨rfl, hmapped⟩ := Prod.mk.inj (Option.some_inj.mp (haccessed.symm.trans hue))
    obtain rfl := Option.some_inj.mp hmapped
    cases hcredit with
    | calling hstage =>
      obtain ⟨hsame, left', hnext, -⟩ := hstage.step hstep
      refine ⟨hcreated, hnamed, hhost, ⟨_, left', rfl, .calling hnext⟩, ?_⟩
      dsimp only
      rw [Function.update_self]
      exact ⟨hsame.authResponseReady.trans hanswer.authResponseReady,
        hsame.response.trans hanswer.response⟩
  | ueReturns usim call mapped result hreturned hdone =>
    obtain ⟨rfl, rfl⟩ := Prod.mk.inj (Option.some_inj.mp (hreturned.symm.trans hue))
    exact ⟨hcreated, hnamed, hhost, ⟨_, _, rfl, .waiting result.2.2⟩, hanswer⟩
  | ueEnds => exact absurd rfl halive
  | hostOpens mapped world hnone hname =>
    refine ⟨hcreated, hnamed, ?_, ⟨process, left, hue, hcredit⟩, hanswer⟩
    rintro _ _ ⟨⟩ rfl
    exact hnamed hname
  | hostCreates world hnone hname =>
    have hne : object ≠ before.created := Nat.ne_of_lt hcreated
    refine ⟨hcreated.trans (Nat.lt_succ_self _), ?_, ?_, ⟨process, left, hue, hcredit⟩, ?_⟩
    · intro hsame
      exact hne (Option.some_inj.mp hsame).symm
    · rintro _ _ ⟨⟩ hsame
      exact hne hsame.symm
    · dsimp only
      rw [Function.update_of_ne hne]
      exact hanswer
  | hostAccesses host mapped changed access rest haccessed hstep =>
    have hne := hhost _ _ haccessed
    refine ⟨hcreated, hnamed, ?_, ⟨process, left, hue, hcredit⟩, ?_⟩
    · rintro _ _ ⟨⟩
      exact hne
    · dsimp only
      rw [Function.update_of_ne (Ne.symm hne)]
      exact hanswer
  | hostEnds =>
    refine ⟨hcreated, hnamed, ?_, ⟨process, left, hue, hcredit⟩, hanswer⟩
    rintro _ _ ⟨⟩
  | hostSignalled host mapped hsignalled =>
    refine ⟨hcreated, ?_, ?_, ⟨process, left, hue, hcredit⟩, hanswer⟩
    · rintro ⟨⟩
    · rintro _ _ ⟨⟩

/-- In every run a UE process is at a stage of its calls. -/
theorem ueCredit_of_reaches {memory : SharedData} {state : SystemState}
    (hreaches : ReflTransGen (SystemStep srsran aes k) ⟨memory, none, none⟩ state) :
    ∃ left, UeCredit state.ue left := by
  have hsteps := ReflTransGen.mono (fun _ _ hstep ↦ eventStep_iff.mpr hstep) _ _ hreaches
  obtain ⟨history, hrun⟩ := reaches_iff_recorded.mp hsteps
  obtain ⟨left, hcredit, -⟩ := (tallied_of_run hrun).posting
  exact ⟨left, hcredit⟩

end Steps

section Results

variable {srsran : Srsran} {aes : Block → Block → Block} {k : Block}

/-- A host and a UE that share an object. -/
theorem shared_object_reached (aes : Block → Block → Block) (k : Block) (srsran : Srsran) :
    ∃ state process host, ReflTransGen (ObjectStep srsran aes k)
      (initialObjects none (fun _ ↦ newObject) 0) state ∧
      state.ue = some (process, some 0) ∧ state.host = some (host, 0) := by
  refine ⟨_, _, _, .tail (.single (.hostCreates _ ⟨0, 0, List.Vector.replicate 92 0⟩ rfl rfl))
    (.ueStarts _ (freshUsim k) rfl rfl), rfl, rfl⟩

/-- Before any object is created, all of them are zero. -/
theorem created_initial : Created (initialObjects none (fun _ ↦ newObject) 0) where
  contents _ _ := rfl
  named := by
    rintro _ ⟨⟩
  ue := by
    rintro _ _ ⟨⟩
  host := by
    rintro _ _ ⟨⟩

/-- Whatever the processes do with the objects and their name, each object goes through a run of the
mailbox.

Assumes: at the start there is no process, and objects that have not been created are zero. -/
theorem objects_refine_mailbox (named : Option ℕ) (contents : ℕ → SharedData) (created : ℕ)
    (hcreated : Created (initialObjects named contents created)) (state : ObjectState)
    (hrun : ReflTransGen (ObjectStep srsran aes k) (initialObjects named contents created) state)
    (object : ℕ) :
    ReflTransGen (SystemStep srsran aes k) ⟨contents object, none, none⟩ (view state object) :=
  (reaches_view hcreated hrun).2 object

theorem objects_refine_mailbox_shared :
    ∃ state process host,
      ReflTransGen (SystemStep (enclaveSrsran Aes.encrypt) Aes.encrypt Enclave.builtInKey)
        ⟨newObject, none, none⟩ state ∧ state.ue = some process ∧ state.host = some host := by
  obtain ⟨state, process, host, hrun, hue, hhost⟩ :=
    shared_object_reached Aes.encrypt Enclave.builtInKey (enclaveSrsran Aes.encrypt)
  refine ⟨_, process, host, objects_refine_mailbox none _ 0 created_initial state hrun 0, ?_, ?_⟩
  · rw [view, hue]
    exact ueAt_mapped process 0
  · rw [view, hhost]
    exact hostAt_mapped host 0

/-- When a host has run `cleanup`, a UE process that maps an object is cut off: as long as this
process lives, no host maps its object, and neither the flag of the response nor the response in it
changes, whatever hosts are started and whatever the UE calls.

Assumes: at the start there is no process, and objects that have not been created are zero. -/
theorem signalled_host_strands_ue (named : Option ℕ) (contents : ℕ → SharedData) (created : ℕ)
    (hcreated : Created (initialObjects named contents created)) (before state : ObjectState)
    (hrun : ReflTransGen (ObjectStep srsran aes k) (initialObjects named contents created) before)
    (process : UeProcess) (object : ℕ) (hue : before.ue = some (process, some object))
    (hlater : ReflTransGen
      (fun first second ↦ ObjectStep srsran aes k first second ∧ second.ue ≠ none)
      { before with host := none, named := none } state) :
    (∀ other mapped, state.host = some (other, mapped) → mapped ≠ object) ∧
      SameAnswer (before.contents object) (state.contents object) := by
  obtain ⟨hbefore, hreaches⟩ := reaches_view hcreated hrun
  obtain ⟨left, hcredit⟩ := ueCredit_of_reaches (hreaches object)
  have hseen : (view before object).ue = some process := by
    rw [view, hue]
    exact ueAt_mapped process object
  have hstranded : Stranded object (before.contents object) state := by
    induction hlater with
    | refl =>
      refine ⟨hbefore.ue _ object hue, ?_, ?_, ⟨process, left, hue, hseen ▸ hcredit⟩, rfl, rfl⟩
      · rintro ⟨⟩
      · rintro _ _ ⟨⟩
    | tail _ hstep ih => exact ih.step hstep.1 hstep.2
  exact ⟨hstranded.host, hstranded.answer⟩

/-- A new host gets a new object. -/
theorem signalled_host_strands_ue_zero :
    ∃ (before state : ObjectState) (process : UeProcess) (host : HostProcess) (mapped : ℕ),
      before.ue = some (process, some 0) ∧ state.ue = before.ue ∧
      state.host = some (host, mapped) ∧ mapped ≠ 0 ∧
      SameAnswer (before.contents 0) (state.contents 0) := by
  obtain ⟨before, process, host, hrun, hue, -⟩ :=
    shared_object_reached Aes.encrypt Enclave.builtInKey (enclaveSrsran Aes.encrypt)
  have halive : before.ue ≠ none := by
    rw [hue]
    exact Option.some_ne_none _
  have hlater : ReflTransGen (fun first second ↦ ObjectStep (enclaveSrsran Aes.encrypt)
      Aes.encrypt Enclave.builtInKey first second ∧ second.ue ≠ none)
      { before with host := none, named := none } _ :=
    .single ⟨.hostCreates _ ⟨0, 0, List.Vector.replicate 92 0⟩ rfl rfl, halive⟩
  obtain ⟨hother, hanswer⟩ := signalled_host_strands_ue none _ 0 created_initial before _ hrun
    process 0 hue hlater
  refine ⟨before, _, process, ⟨⟨0, 0, List.Vector.replicate 92 0⟩, resetFlags⟩, before.created, hue,
    ?_, ?_, hother _ _ rfl, hanswer⟩
  · rfl
  · rfl

end Results

end Disguise.Mailbox
