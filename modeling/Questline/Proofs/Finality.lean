import Questline.Proofs.Stopping

/-!
# When stopping is final

A stop that was begun from inside a call returns while the call is still waited for, with
the stack below it as it was.  If nothing on that stack revives the run, the run is over
for good.  If something does, the host can unwind the stack to it, by failing in every call
above it, and then answer the call: so the stop is not final.

Unwinding needs to know what a stack looks like.  A frame that waits for a timer is on top
only while the timer is being cancelled, and deliveries are the first thing an entry does.

* `Turn.Tidy`: what the stack looks like, and `Turn.Leads.tidy`: it always does.
* `Turn.exists_revival`: what revives a run can be reached.
* `stop_final_iff`: stopping is final exactly if nothing on the stack revives the run and
  no figure is left.
-/

namespace Questline

/-! ## Stacks -/

/-- The top frame does not wait for a timer. -/
def Unhurried (stack : List Frame) : Prop := ∀ f fs, stack = f :: fs → f.isForTimer = false

/-- Nothing is under way, or a call is waited for. -/
def AtCall (stack : List Frame) : Prop := stack = [] ∨ ∃ a fs, stack = .asked a :: fs

theorem unhurried_of_atCall {stack : List Frame} (h : AtCall stack) : Unhurried stack := by
  intro f fs hs
  rcases h with rfl | ⟨a, fs', rfl⟩
  · cases hs
  · cases hs; rfl

/-- A stack on which every frame that waits for a timer lies directly under the call that
cancels it, and deliveries lie directly on what was under way before them. -/
inductive TidyStack : List Frame → Prop
  | nil : TidyStack []
  | cons {f : Frame} {stack : List Frame} (rest : TidyStack stack)
      (timer : Unhurried stack ∨ ∃ timer, f = .asked (.cancelTimer timer))
      (posting : f.isPosting → AtCall stack) : TidyStack (f :: stack)

theorem TidyStack.append {frames stack : List Frame} (h : TidyStack stack)
    (timer : frames = [] ∨ Unhurried stack) (noTimer : ∀ f ∈ frames.tail, f.isForTimer = false)
    (noPosting : ∀ f ∈ frames, f.isPosting = false) : TidyStack (frames ++ stack) := by
  induction frames with
  | nil => exact h
  | cons f frames ih =>
    have hs : Unhurried stack := by simpa using timer
    have hf : ∀ g ∈ frames, g.isForTimer = false := noTimer
    refine .cons (ih (.inr hs) (fun g hg => hf g (List.mem_of_mem_tail hg))
      fun g hg => noPosting g (List.mem_cons_of_mem _ hg)) (.inl ?_) ?_
    · intro g gs hg
      cases frames with
      | nil => exact hs g gs hg
      | cons g' frames =>
        obtain ⟨rfl, -⟩ := List.cons.inj hg
        exact hf _ List.mem_cons_self
    · intro hp
      rw [noPosting f List.mem_cons_self] at hp
      cases hp

namespace Turn

/-- What every turn that is reached looks like. -/
structure Tidy (t : Turn) : Prop where
  stack : TidyStack t.stack
  timer : Unhurried t.stack ∨ t.control.isOver ∨ ∃ timer, t.control = .ask (.cancelTimer timer)
  entry : ∀ e, t.control = .work (.entry e) → AtCall t.stack

variable {t u : Turn} {d : Deed}

theorem Tidy.on {P : Prop} {q : RunId} {s : Session} {m : Move} {stack : List Frame}
    (h : m.WorksFor P q s) (hs : TidyStack stack) (free : Unhurried stack) : (m.on stack).Tidy where
  stack := hs.append (.inr free) h.noTimer h.noPosting
  timer := by
    cases hm : m.frames with
    | nil =>
      left
      show Unhurried (m.frames ++ stack)
      rw [hm]
      exact free
    | cons f fs =>
      by_cases hf : f.isForTimer
      · exact .inr (.inr (h.timer f fs hm hf))
      · left
        intro g gs hg
        have hg' : f :: (fs ++ stack) = g :: gs := by
          rw [← hg]
          show _ = m.frames ++ stack
          rw [hm]
          rfl
        obtain ⟨rfl, -⟩ := List.cons.inj hg'
        simpa using hf
  entry e he := absurd he (h.noEntry e)

theorem Tidy.post {s : Session} {ds : List Delivery} {stack : List Frame} (hs : TidyStack stack)
    (bottom : AtCall stack) : ((s.post ds).on stack).Tidy := by
  have free := unhurried_of_atCall bottom
  cases ds with
  | nil => exact ⟨hs, .inl free, fun e he => by cases he⟩
  | cons d ds =>
    refine ⟨.cons hs (.inl free) fun _ => bottom, .inl ?_, fun e he => by cases he⟩
    intro f fs hf
    cases hf
    rfl

theorem Tidy.posts {s : Session} {m : Move} {stack : List Frame} (h : m.Posts s)
    (hs : TidyStack stack) (bottom : AtCall stack) : (m.on stack).Tidy := by
  obtain ⟨s', -, ds, rfl⟩ := h
  exact .post hs bottom

theorem Does.tidy (h : t.Does d u) (ht : t.Tidy) : u.Tidy := by
  obtain ⟨hs, htimer, hentry⟩ := ht
  cases h with
  | @work s stack task =>
    have free : Unhurried stack := by
      rcases htimer with h | h | ⟨_, h⟩
      · exact h
      · cases h
      · cases h
    by_cases he : ∃ e, task = .entry e
    · obtain ⟨e, rfl⟩ := he
      rcases Session.enter_worksFor s e with ⟨q, hm⟩ | hm
      · exact .on hm hs free
      · exact .posts hm hs (hentry e rfl)
    · obtain ⟨q, hm⟩ := Task.begin_worksFor s task fun e h => he ⟨e, h⟩
      exact .on hm hs free
  | @receive s frame stack result hn =>
    cases hs with
    | cons rest timer posting =>
      have free : Unhurried stack := timer.resolve_right fun ⟨_, h⟩ => hn _ h
      cases hp : frame.isPosting with
      | true =>
        cases frame <;> cases hp
        exact .post rest (posting rfl)
      | false =>
        obtain ⟨q, hm⟩ := Frame.receive_worksFor s frame result hn hp
        exact .on hm rest free
  | @recover s frame stack fault hn =>
    cases hs with
    | cons rest timer posting =>
      have free : Unhurried stack := timer.resolve_right fun ⟨_, h⟩ => hn _ h
      cases hp : frame.isPosting with
      | true =>
        cases frame <;> cases hp
        exact .post rest (posting rfl)
      | false =>
        obtain ⟨q, hm⟩ := Frame.recover_worksFor s frame fault hp
        exact .on hm rest free
  | beginAtRest ho entry => exact ⟨hs, .inl fun f fs h => (by cases h), fun _ _ => .inl rfl⟩
  | @beginInside s stack a entry =>
    refine ⟨.cons hs ?_ (fun h => by cases h), .inl ?_, fun _ _ => .inr ⟨a, stack, rfl⟩⟩
    · rcases htimer with h | h | ⟨timer, h⟩
      · exact .inl h
      · cases h
      · cases h
        exact .inr ⟨timer, rfl⟩
    · intro f fs hf
      cases hf
      rfl
  | @leave s stack a c ho =>
    cases hs with
    | cons rest timer posting =>
      refine ⟨rest, ?_, fun e he => by cases he⟩
      rcases timer with h | ⟨timer, h⟩
      · exact .inl h
      · cases h
        exact .inr (.inr ⟨timer, rfl⟩)
  | @reply s stack a answer =>
    rcases htimer with h | h | ⟨timer, h⟩
    · obtain ⟨q, hm⟩ := a.resume_worksFor s answer
      exact .on hm hs h
    · cases h
    · cases h
      exact ⟨hs, .inr (.inl rfl), fun e he => by cases he⟩
  | fail fault => exact ⟨hs, .inr (.inl rfl), fun e he => by cases he⟩
  | change ho files flags => exact ⟨hs, htimer, hentry⟩

theorem Leads.tidy {may : Turn → Deed → Prop} (h : t.Leads may u) (ht : t.Tidy) : u.Tidy := by
  obtain ⟨events, h⟩ := h
  exact h.induct ht fun ih _ does => does.tidy ih

theorem tidy_atRest (s : Session) : s.atRest.Tidy :=
  ⟨.nil, .inr (.inl rfl), fun e he => by cases he⟩

/-! ## Unwinding -/

/-- A fault that is passed on by all the frames of a list reaches the stack below. -/
theorem leads_of_passes {f : Fault} {frames stack : List Frame}
    (h : ∀ g ∈ frames, ∀ s, g.recover s f = .failure s f ∧ ∀ a, g ≠ .asked a) (s : Session) :
    Leads anyDeed ⟨s, frames ++ stack, .failed f⟩ ⟨s, stack, .failed f⟩ := by
  induction frames with
  | nil => exact .refl _
  | cons g frames ih =>
    obtain ⟨hrecover, hasked⟩ := h g List.mem_cons_self s
    have hstep : Does ⟨s, g :: (frames ++ stack), .failed f⟩ .move
        ((g.recover s f).on (frames ++ stack)) := .recover hasked
    rw [hrecover] at hstep
    exact ((Leads.refl _).step trivial hstep).trans
      (ih fun g hg => h g (List.mem_cons_of_mem _ hg))

/-- A host that fails in a call has its fault passed on. -/
theorem leads_of_fail (frames : List Frame) {stack : List Frame} {a : Ask}
    (h : ∀ g ∈ frames, ∀ s, g.recover s .unsupported = .failure s .unsupported ∧
      ∀ a, g ≠ .asked a) (s : Session) :
    Leads anyDeed ⟨s, frames ++ stack, .ask a⟩ ⟨s, stack, .failed .unsupported⟩ :=
  ((Leads.refl _).step trivial (.fail .unsupported)).trans (leads_of_passes h s)

theorem Leads.work {s : Session} {stack : List Frame} {task : Task} {u : Turn}
    (h : Leads anyDeed ((task.begin s).on stack) u) : Leads anyDeed ⟨s, stack, .work task⟩ u :=
  ((Leads.refl _).step trivial (.work task)).trans h

theorem Leads.receive {s : Session} {f : Frame} {stack : List Frame} {result : Result} {u : Turn}
    (hf : ∀ a, f ≠ .asked a) (h : Leads anyDeed ((f.receive s result).on stack) u) :
    Leads anyDeed ⟨s, f :: stack, .done result⟩ u :=
  ((Leads.refl _).step trivial (.receive hf)).trans h

theorem Leads.recover {s : Session} {f : Frame} {stack : List Frame} {fault : Fault} {u : Turn}
    (hf : ∀ a, f ≠ .asked a) (h : Leads anyDeed ((f.recover s fault).on stack) u) :
    Leads anyDeed ⟨s, f :: stack, .failed fault⟩ u :=
  ((Leads.refl _).step trivial (.recover hf)).trans h

/-- A host that fails in every call gets through the end of a run. -/
theorem leads_of_close (s : Session) (q : RunId) (stack : List Frame) :
    ∃ s', Leads anyDeed ((s.close q .stopped).on (.failing .unsupported :: stack))
      ⟨s', stack, .failed .unsupported⟩ := by
  have announced (s : Session) (completion : Option Callback) (ledger : Ledger) :
      Leads anyDeed ((s.announce completion ledger).on (.failing .unsupported :: stack))
        ⟨s, stack, .failed .unsupported⟩ := by
    cases completion with
    | none => exact .receive (by simp) (.refl _)
    | some callback =>
      refine leads_of_fail [.failing .unsupported] ?_ s
      simp [Frame.recover]
  have dismissed (s : Session) (npcs : List String) (completion : Option Callback)
      (ledger : Ledger) :
      ∃ s', Leads anyDeed ((s.dismiss q npcs).on
          (.announcing completion ledger :: .failing .unsupported :: stack))
        ⟨s', stack, .failed .unsupported⟩ := by
    cases npcs with
    | nil => exact ⟨_, .receive (by simp) (announced _ completion ledger)⟩
    | cons npc rest =>
      refine ⟨s, leads_of_fail [.announcing completion ledger, .failing .unsupported] ?_ s⟩
      simp [Frame.recover]
  rw [s.close_stopped q, Move.on_under]
  exact dismissed _ _ _ _

/-- A host that fails in every call gets through the cleaning up of a run. -/
theorem leads_of_driving (s : Session) (q : RunId) (stack : List Frame) :
    ∃ s', Leads anyDeed ⟨s, .driving q :: stack, .failed .unsupported⟩
      ⟨s', stack, .failed .unsupported⟩ := by
  have stopped (s : Session) : ∃ s', Leads anyDeed
      ((s.stopIfActive q).on (.failing .unsupported :: stack))
      ⟨s', stack, .failed .unsupported⟩ := by
    unfold Session.stopIfActive
    split
    · have hterm : ∃ s', Leads anyDeed
          ((s.terminate q .stopped).on (.failing .unsupported :: stack))
          ⟨s', stack, .failed .unsupported⟩ := by
        rcases s.terminate_cases q .stopped with ⟨w, -, -, h⟩ | ⟨-, h⟩
        · rw [h]
          refine ⟨_, leads_of_fail [.ending q .stopped, .failing .unsupported] ?_ _⟩
          simp [Frame.recover]
        · rw [h]
          exact leads_of_close s q stack
      obtain ⟨s', hterm⟩ := hterm
      exact ⟨s', .work hterm⟩
    · exact ⟨s, .receive (by simp) (.refl _)⟩
  obtain ⟨s', h⟩ := stopped { s with lastError := some .unsupported }
  refine ⟨s', .recover (by simp) ?_⟩
  rw [Frame.recover, Move.on_under]
  exact h

/-- A host that fails in every call gets through some deliveries. -/
theorem leads_of_post (s : Session) (ds : List Delivery) (stack : List Frame) :
    Leads anyDeed ((s.post ds).on stack) ⟨s, stack, .done .done⟩ := by
  induction ds with
  | nil => exact .refl _
  | cons d ds ih =>
    have hfail : Leads anyDeed ⟨s, .posting ds :: stack, .ask (.deliver d)⟩
        ⟨s, .posting ds :: stack, .failed .unsupported⟩ :=
      (Leads.refl _).step trivial (.fail .unsupported)
    exact hfail.trans (.recover (by simp) ih)

end Turn

/-! ## Reviving a run -/

namespace Session

variable {s : Session} {r : RunId} (hr : r < s.runs.length)

@[simp] theorem run_enqueue (s : Session) (q r : RunId) (job : Job) :
    (s.enqueue q job).session.run r = s.run r := by
  simp only [enqueue]
  split <;> rfl

include hr

theorem phase_install (graph : Graph) : ((s.install r graph).session.run r).phase = .running := by
  rw [install, run_enqueue]
  exact congrArg Run.phase (run_setRun_self hr)

theorem phase_resume (job : Job) : ((s.resume r job).session.run r).phase = .running := by
  rw [resume, run_enqueue]
  exact congrArg Run.phase (run_setRun_self hr)

theorem phase_suspend (kind : WaitKind) (node : String) :
    ((s.suspend r kind node).run r).phase = .suspended :=
  congrArg Run.phase (run_setRun_self hr)

theorem phase_close {phase : Phase} (hp : phase ≠ .stopped) :
    ((s.close r phase).session.run r).phase = phase := by
  have announced (s : Session) (completion : Option Callback) (ledger : Ledger) :
      (s.announce completion ledger).session = s := by
    cases completion <;> rfl
  simp only [close, if_neg hp, announced]
  split <;> exact congrArg Run.phase (run_setRun_self hr)

end Session

theorem insertOnce_ne_nil (name : String) (names : List String) : insertOnce name names ≠ [] := by
  cases names with
  | nil => simp [insertOnce]
  | cons other names =>
    simp only [insertOnce]
    split
    · simp
    · split <;> simp

namespace Turn

variable {r : RunId}

/-- The host can bring the run `r` back to life, or have a figure join it. -/
def CanRevive (r : RunId) (t : Turn) : Prop :=
  ∃ v, t.Leads anyDeed v ∧ ((v.session.run r).phase ≠ .stopped ∨ (v.session.run r).npcs ≠ [])

theorem CanRevive.of_leads {t u : Turn} (h : t.Leads anyDeed u) (hu : u.CanRevive r) :
    t.CanRevive r := by
  obtain ⟨v, hv, hr⟩ := hu
  exact ⟨v, h.trans hv, hr⟩

theorem CanRevive.of_phase {t : Turn} {phase : Phase} (h : (t.session.run r).phase = phase)
    (hp : phase ≠ .stopped) : t.CanRevive r :=
  ⟨t, .refl t, .inl (by rw [h]; exact hp)⟩

/-- The answer to a call that revives a run does so. -/
theorem canRevive_of_reply {s : Session} {stack : List Frame} {a : Ask} (hr : r < s.runs.length)
    (ha : a.revives r) : CanRevive r ⟨s, stack, .ask a⟩ := by
  have reply (answer : a.call.Reply) :
      Leads anyDeed ⟨s, stack, .ask a⟩ ((a.resume s answer).on stack) :=
    (Leads.refl _).step trivial (.reply answer)
  cases a with
  | spawn q request =>
    obtain rfl : q = r := beq_iff_eq.1 ha
    refine ⟨_, reply "", .inr ?_⟩
    have hrun : ((s.setRun q (·.addNpc "")).run q).npcs = insertOnce "" (s.run q).npcs :=
      congrArg Run.npcs (Session.run_setRun_self hr)
    exact fun h => insertOnce_ne_nil _ _ (hrun.symm.trans h)
  | fillIn q graph =>
    obtain rfl : q = r := beq_iff_eq.1 ha
    exact .of_leads (reply []) (.of_phase (Session.phase_install hr _) (by decide))
  | handOver q node link callback ledger =>
    obtain rfl : q = r := beq_iff_eq.1 ha
    exact .of_leads (reply (.pending 0)) (.of_phase (Session.phase_suspend hr .link node) (by decide))
  | _ => cases ha

/-- A frame that waits for a timer and revives a run does so once the timer is cancelled. -/
theorem canRevive_of_timer {s : Session} {stack : List Frame} {f : Frame} {timer : TimerHandle}
    (hr : r < s.runs.length) (ht : f.isForTimer) (hf : f.revives r) :
    CanRevive r ⟨s, f :: stack, .ask (.cancelTimer timer)⟩ := by
  have reply : Leads anyDeed ⟨s, f :: stack, .ask (.cancelTimer timer)⟩ ⟨s, f :: stack, .done .done⟩ :=
    (Leads.refl _).step trivial (.reply ())
  refine .of_leads reply ?_
  cases f with
  | resuming q job =>
    obtain rfl : q = r := beq_iff_eq.1 hf
    exact .of_leads (.receive (by simp) (.refl _)) (.of_phase (Session.phase_resume hr job) (by decide))
  | ending q phase =>
    obtain ⟨hq, hp⟩ := Bool.and_eq_true_iff.1 hf
    obtain rfl : q = r := beq_iff_eq.1 hq
    have hp : phase ≠ .stopped := by simpa using hp
    exact .of_leads (.receive (by simp) (.refl _)) (.of_phase (Session.phase_close hr hp) hp)
  | _ => cases ht

/-- A call is answered if that revives the run, and else the host fails in it. -/
theorem canRevive_of_ask {s : Session} {below : List Frame} {a : Ask} (hr : r < s.runs.length)
    (tidy : TidyStack (.asked a :: below)) (hv : ∃ f ∈ .asked a :: below, f.revives r)
    (ih : ∀ stack, stack.length ≤ below.length → TidyStack stack → Unhurried stack →
      (∃ f ∈ stack, f.revives r) → CanRevive r ⟨s, stack, .failed .unsupported⟩) :
    CanRevive r ⟨s, below, .ask a⟩ := by
  have fail : Leads anyDeed ⟨s, below, .ask a⟩ ⟨s, below, .failed .unsupported⟩ :=
    (Leads.refl _).step trivial (.fail .unsupported)
  by_cases ha : a.revives r
  · exact canRevive_of_reply hr ha
  have hbelow : ∃ f ∈ below, f.revives r := by
    obtain ⟨f, hf, hfr⟩ := hv
    rcases List.mem_cons.1 hf with rfl | hf
    · exact absurd hfr ha
    · exact ⟨f, hf, hfr⟩
  cases tidy with
  | cons rest timer posting =>
    by_cases free : Unhurried below
    · exact .of_leads fail (ih below (Nat.le_refl _) rest free hbelow)
    obtain ⟨timer, rfl⟩ : ∃ timer, a = .cancelTimer timer := by
      obtain ⟨timer, h⟩ := timer.resolve_left free
      exact ⟨timer, Frame.asked.inj h⟩
    cases rest with
    | nil => exact absurd (fun _ _ h => by cases h) free
    | @cons g stack rest timer' _ =>
      have hg : g.isForTimer := by
        cases hg : g.isForTimer with
        | true => rfl
        | false => exact absurd (fun f fs h => by cases h; exact hg) free
      by_cases hgr : g.revives r
      · exact canRevive_of_timer hr hg hgr
      -- The host fails: what waits for the timer passes the fault on.
      have pass : g.recover s .unsupported = .failure s .unsupported ∧ ∀ a, g ≠ .asked a := by
        cases g <;> cases hg <;> exact ⟨rfl, fun _ h => by cases h⟩
      have hlead : Leads anyDeed ⟨s, g :: stack, .failed .unsupported⟩
          ((g.recover s .unsupported).on stack) := .recover pass.2 (.refl _)
      rw [pass.1] at hlead
      refine .of_leads (fail.trans hlead) (ih stack (Nat.le_succ _) rest ?_ ?_)
      · refine timer'.resolve_right fun ⟨_, h⟩ => ?_
        rw [h] at hg
        cases hg
      · obtain ⟨f, hf, hfr⟩ := hbelow
        rcases List.mem_cons.1 hf with rfl | hf
        · exact absurd hfr hgr
        · exact ⟨f, hf, hfr⟩

/-- **What revives a run can be reached** by failing in every call before it. -/
theorem exists_revival {stack : List Frame} {s : Session} (hr : r < s.runs.length)
    (tidy : TidyStack stack) (free : Unhurried stack) (hv : ∃ f ∈ stack, f.revives r) :
    CanRevive r ⟨s, stack, .failed .unsupported⟩ := by
  induction hn : stack.length using Nat.strongRecOn generalizing stack s with
  | ind n ih =>
    subst hn
    cases tidy with
    | nil =>
      obtain ⟨f, hf, -⟩ := hv
      cases hf
    | @cons f below rest timer posting =>
      have below_of {f : Frame} (hf : f.revives r = false) (hv : ∃ g ∈ f :: below, g.revives r) :
          ∃ g ∈ below, g.revives r := by
        obtain ⟨g, hg, hgr⟩ := hv
        rcases List.mem_cons.1 hg with rfl | hg
        · rw [hf] at hgr; cases hgr
        · exact ⟨g, hg, hgr⟩
      -- Below a frame that is not a call no frame waits for a timer.
      have next (hasked : ∀ a, f ≠ .asked a) (hf : f.revives r = false) {s' : Session}
          (h : Leads anyDeed ⟨s, f :: below, .failed .unsupported⟩
            ⟨s', below, .failed .unsupported⟩) :
          CanRevive r ⟨s, f :: below, .failed .unsupported⟩ :=
        .of_leads h (ih below.length (Nat.lt_succ_self _) (Nat.lt_of_lt_of_le hr h.ages.length_le)
          rest (timer.resolve_right fun ⟨_, h⟩ => hasked _ h) (below_of hf hv) rfl)
      cases f with
      | draining => exact next (by simp) rfl (.recover (by simp) (.refl _))
      | driving q =>
        obtain ⟨s', h⟩ := leads_of_driving s q below
        exact next (by simp) rfl h
      | resuming q job => cases free _ _ rfl
      | ending q phase => cases free _ _ rfl
      | asked a =>
        have leave : Leads anyDeed ⟨s, .asked a :: below, .failed .unsupported⟩ ⟨s, below, .ask a⟩ :=
          (Leads.refl _).step trivial (.leave rfl)
        refine .of_leads leave (canRevive_of_ask hr (.cons rest timer posting) hv ?_)
        intro stack hl tidy free hv
        exact ih stack.length (Nat.lt_succ_of_le hl) hr tidy free hv rfl
      | posting rest' =>
        have hpost : Leads anyDeed ⟨s, .posting rest' :: below, .failed .unsupported⟩
            ⟨s, below, .done .done⟩ := .recover (by simp) (leads_of_post s rest' below)
        refine .of_leads hpost ?_
        have hbelow := below_of rfl hv
        rcases posting rfl with rfl | ⟨a, stack, rfl⟩
        · obtain ⟨g, hg, -⟩ := hbelow
          cases hg
        · have leave : Leads anyDeed ⟨s, .asked a :: stack, .done .done⟩ ⟨s, stack, .ask a⟩ :=
            (Leads.refl _).step trivial (.leave rfl)
          refine .of_leads leave (canRevive_of_ask hr rest hbelow ?_)
          intro stack' hl tidy free hv
          exact ih stack'.length (Nat.lt_succ_of_le (Nat.le_succ_of_le hl)) hr tidy free hv rfl
      | failing | triggering | following | stepping | timing | announcing | linking =>
        exact next (by simp) rfl (.recover (by simp) (.refl _))

end Turn

/-! ## When stopping is final -/

/-- In the turn `v` the run `r` is still over, as it was in the turn `u`: it is stopped
and has no figures, no node of it was visited in between or is about to be, and no linked
script was entered or is queued. -/
structure Turn.StaysOver (r : RunId) (u v : Turn) : Prop where
  phase : (v.session.run r).phase = .stopped
  npcs : (v.session.run r).npcs = []
  counters : (v.session.run r).counters = (u.session.run r).counters
  visit : ∀ node graph, v.control ≠ .work (.visit r node graph)
  script : (v.session.run r).script = (u.session.run r).script
  jobs : ∀ job, (r, job) ∈ v.session.pending → (r, job) ∈ u.session.pending

theorem Turn.staysOver_of_spared {r : RunId} {u v : Turn} (hu : u.Spared r [])
    (npcs : (u.session.run r).npcs = []) (h : u.Leads anyDeed v) : u.StaysOver r v := by
  obtain ⟨hv, hs⟩ := h.spares hu fun _ _ _ => .inl rfl
  refine ⟨hs.phase, hs.npcs npcs, hs.counters, ?_, hs.script, hs.jobs⟩
  intro node graph hc
  have hrevives := hv.control
  rw [hc] at hrevives
  simp [Control.revives, Task.revives] at hrevives

/-- A run that is current was added. -/
theorem Turn.Leads.lt_length {t : Turn} {r : RunId} {files : FileTree} {library : Path}
    {flags : FlagStore} (reached : (Session.fresh files library flags).atRest.Leads anyDeed t)
    (current : t.session.current = some r) : r < t.session.runs.length := by
  rcases reached.ages.current with h | ⟨q, h, -, hq, -⟩
  · rw [current] at h; cases h
  · rw [current] at h; cases h; exact hq

/-- **When stopping is final.**  Whatever the host does, a stop that returns leaves the run
stopped, and without figures unless it was stopped already.  It is final exactly if the run
has no figures and nothing that is under way revives it. -/
theorem stop_final_iff {files : FileTree} {library : Path} {flags : FlagStore} {t u : Turn}
    {r : RunId} {result : Result}
    (reached : (Session.fresh files library flags).atRest.Leads anyDeed t)
    (current : t.session.current = some r) (stop : t.control = .work (.entry .stop))
    (returns : t.Leads (untilBack t.stack) u) (back : u.stack = t.stack)
    (done : u.control = .done result) :
    (u.session.run r).phase = .stopped ∧
    ((t.session.run r).phase ≠ .stopped → (u.session.run r).npcs = []) ∧
    ((∀ v, u.Leads anyDeed v → u.StaysOver r v) ↔
      (u.session.run r).npcs = [] ∧ ∀ f ∈ u.stack, f.revives r = false) := by
  have hr := reached.lt_length current
  obtain ⟨phase, npcs⟩ := stop_returns hr current stop returns back done
  refine ⟨phase, npcs, ?_, ?_⟩
  · intro final
    refine ⟨(final u (.refl u)).npcs, fun f hf => ?_⟩
    -- Were there something that revives the run, the host could reach it.
    cases hv : f.revives r with
    | false => rfl
    | true =>
      have tidy := returns.tidy (reached.tidy (Turn.tidy_atRest _))
      have bottom : AtCall u.stack := by
        rw [back]
        exact (reached.tidy (Turn.tidy_atRest _)).entry _ stop
      have hlength := Nat.lt_of_lt_of_le hr returns.ages.length_le
      obtain ⟨s, stack, c⟩ := u
      obtain rfl : c = .done result := done
      rcases bottom with hs | ⟨a, below, hs⟩
      · obtain rfl : stack = [] := hs
        cases hf
      · obtain rfl : stack = .asked a :: below := hs
        have leave : Turn.Leads anyDeed ⟨s, .asked a :: below, .done result⟩ ⟨s, below, .ask a⟩ :=
          (Turn.Leads.refl _).step trivial (.leave rfl)
        obtain ⟨v, hv, hover⟩ := Turn.CanRevive.of_leads leave
          (Turn.canRevive_of_ask hlength tidy.stack ⟨f, hf, hv⟩
            fun stack _ tidy free hv => Turn.exists_revival hlength tidy free hv)
        rcases hover with h | h
        · exact absurd (final v hv).phase h
        · exact absurd (final v hv).npcs h
  · rintro ⟨npcs, hstack⟩ v hv
    refine Turn.staysOver_of_spared ⟨phase, ⟨u.stack, by simp, hstack⟩, ?_⟩ npcs hv
    rw [done]
    rfl

/-! ### Stopping from inside a call -/

/-- A script that only shows an image. -/
def imageOnly : Graph :=
  let map : Node := ⟨"map", .image ⟨"map.png", .int 3⟩⟩
  { script := { id := "prologue", nodes := [map], connections := [] }, entry := map }

/-- A script that only leads on to another one. -/
def linkOnly : Graph :=
  let door : Node := ⟨"door", .link { target := "quest" }⟩
  { script := { id := "prologue", nodes := [door], connections := [] }, entry := door }

/-- The host stops a run from inside the first call that the run makes. -/
def stopInFirstCall (graph : Graph) : Turn :=
  (Session.fresh (.empty []) (.ofString "scripts") {}).atRest.play
    [.begin (.startGraph graph (some 0)), .move, .move, .move, .move, .move, .begin .stop]

/-- Stopping a run from inside the call that shows an image is final. -/
theorem stop_in_present_final :
    let t := stopInFirstCall imageOnly
    let u := t.play [.move, .move, .reply (.announce 0 []) .plain]
    t.control = .work (.entry .stop) ∧ u.control = .done .done ∧
      ∀ v, u.Leads anyDeed v → u.StaysOver 0 v := by
  intro t u
  have reached : (Session.fresh (.empty []) (.ofString "scripts") {}).atRest.Leads anyDeed t :=
    leads_play rfl
  have returns : t.Leads (untilBack t.stack) u := by
    refine (((Turn.Leads.refl t).step ?_ (Turn.does_of_after? (d := .move) rfl)).step ?_
      (Turn.does_of_after? (d := .move) rfl)).step ?_
      (Turn.does_of_after? (d := .reply (.announce 0 []) .plain) rfl)
    · exact fun h => absurd h.2 (by decide)
    · exact fun h => absurd (congrArg List.length h.1) (by decide)
    · exact fun h => absurd h.2 (by decide)
  have done : u.control = .done .done := rfl
  have final := stop_final_iff reached (r := 0) rfl rfl returns rfl done
  exact ⟨rfl, rfl, final.2.2.2 ⟨rfl, by decide⟩⟩

/-- **Stopping is not final** from inside the call that hands over the answers at a link: if
the host then answers that a write is under way, the stopped run waits for it. -/
theorem stop_in_handOver_not_final :
    let t := stopInFirstCall linkOnly
    let u := t.play [.move, .move]
    let v := u.play [.leave, .reply (.handOver 0 "door" { target := "quest" } 0 []) (.pending 0)]
    (Session.fresh (.empty []) (.ofString "scripts") {}).atRest.Leads anyDeed t ∧
      t.control = .work (.entry .stop) ∧ t.session.current = some 0 ∧
      t.Leads (untilBack t.stack) u ∧ u.stack = t.stack ∧ u.control = .done .done ∧
      (u.session.run 0).phase = .stopped ∧
      u.Leads anyDeed v ∧ (v.session.run 0).phase = .suspended := by
  intro t u v
  have returns : t.Leads (untilBack t.stack) u := by
    refine ((Turn.Leads.refl t).step ?_ (Turn.does_of_after? (d := .move) rfl)).step ?_
      (Turn.does_of_after? (d := .move) rfl)
    · exact fun h => absurd h.2 (by decide)
    · exact fun h => absurd (congrArg List.length h.1) (by decide)
  exact ⟨leads_play rfl, rfl, rfl, returns, rfl, rfl, rfl, leads_play rfl, rfl⟩

end Questline
