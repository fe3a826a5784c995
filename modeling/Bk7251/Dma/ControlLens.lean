import Bk7251.Dma.CommandEffects
import Bk7251.Lib.Machine

/-!
# The commands of the DMA as a lens

Commands and the hardware take turns. Every field holds the value that was set last for it, and what a command returns
is what it names, but for two kinds of commands.
-/
namespace Bk7251.Dma

open Lib

section

variable {s : Gdma} {command : Command}

/-- The command comes back with what it should return, and has changed only what it names. -/
def Right (command : Command) (s : Gdma) : Prop :=
  ∃ t, gdmaCtrl s command = some (t, command.result s.regs) ∧ Only command s t

/-- The destination is asked for where it pauses as the source does, and a channel is not given as a null pointer. -/
def Command.Fine (regs : Regs) : Command → Prop
  | .withCfg .getDstPauseAddr dmaCfg =>
    (Field.srcPauseAddr.part dmaCfg.channel).read regs = (Field.dstPauseAddr.part dmaCfg.channel).read regs
  | .withChannel _ channel => channel ≠ 0
  | _ => True

theorem right_iff (valid : command.Valid) : Right command s ↔ command.Fine s.regs := by
  constructor
  · rintro ⟨t, ran, _⟩
    cases command with
    | withCfg cmd dmaCfg =>
      cases cmd with
      | getDstPauseAddr =>
        -- it returns the word of the source, and should return that of the destination
        have ret := congrArg Prod.snd (Option.some.inj ran)
        exact (gdmaGetSrcPauseAddr_eq s.regs dmaCfg.channel).symm.trans ret
      | _ => trivial
    | withChannel cmd channel =>
      rintro rfl
      cases ran
    | _ => trivial
  · intro fine
    obtain ⟨t, ran⟩ : ∃ t, gdmaCtrl s command = some (t, command.result s.regs) := by
      cases command with
      | withCfg cmd dmaCfg =>
        refine ⟨(ctrlCfg s cmd dmaCfg).1, congrArg some (Prod.ext rfl ?_)⟩
        by_cases exception : cmd = .getDstPauseAddr
        · subst exception
          exact (gdmaGetSrcPauseAddr_eq s.regs dmaCfg.channel).trans fine
        · exact ctrlCfg_snd valid exception
      | withTypes cmd cfg => exact ⟨ctrlTypes s cmd cfg, rfl⟩
      | withChannel cmd channel => exact ⟨s, gdmaCtrl_withChannel fine valid⟩
      | other => exact ⟨s, rfl⟩
    exact ⟨t, ran, gdmaCtrl_only valid ran⟩

end

/-! ### Runs -/

/-- A command, or what the hardware does in between: it tells something new, or switches a channel off at the end of
a transfer. -/
inductive Event
  | ctrl (command : Command)
  | told (status : Status) (channel value : Word)
  | ended (channel : Word)

namespace Event

def sets : Event → List (Loc × Word)
  | .ctrl command => command.sets
  | .told _ _ _ => []
  | .ended channel => [(.ofChannel channel .dmaEn, 0)]

def Valid : Event → Prop
  | .ctrl command => command.Valid
  | .told _ channel _ => channel < GDMA_CHANNEL_MAX
  | .ended channel => channel < GDMA_CHANNEL_MAX

def Fine (regs : Regs) : Event → Prop
  | .ctrl command => command.Fine regs
  | _ => True

end Event

def step (s : Gdma) : Event → Option Gdma
  | .ctrl command => (gdmaCtrl s command).map Prod.fst
  | .told status channel value => some { s with regs := (status.part channel).write s.regs value }
  | .ended channel => some { s with regs := (Field.dmaEn.part channel).write s.regs 0 }

def next (r : Option Gdma) (e : Event) : Option Gdma := r.bind fun s => step s e

/-- The state after all events, unless a command among them does not come back. -/
def run (s : Gdma) (events : List Event) : Option Gdma := events.foldl next (some s)

/-- Every command is right, and every field always holds what was set last for it. -/
structure Lens (s : Gdma) (events : List Event) : Prop where
  right : ∀ part command, part ++ [.ctrl command] <+: events → ∀ t, run s part = some t → Right command t
  last : ∀ part, part <+: events → ∀ t, run s part = some t → ∀ l : Loc, l.Valid →
    l.part.read t.regs = FieldAt.held Loc.part (part.flatMap Event.sets) l (l.part.read s.regs)

theorem run_cons (s : Gdma) (e : Event) (events : List Event) :
    run s (e :: events) = (step s e).bind fun t => run t events := by
  have stopped : events.foldl next none = none := by
    induction events with
    | nil => rfl
    | cons _ _ ih => exact ih
  cases stepped : step s e with
  | none => rw [run, List.foldl_cons, next, Option.bind_some, stepped, stopped, Option.bind_none]
  | some t => rw [run, List.foldl_cons, next, Option.bind_some, stepped, Option.bind_some, run]

theorem read_step {s t : Gdma} {e : Event} (valid : e.Valid) (stepped : step s e = some t) {l : Loc}
    (valid' : l.Valid) : l.part.read t.regs = FieldAt.held Loc.part e.sets l (l.part.read s.regs) := by
  cases e with
  | ctrl command =>
    obtain ⟨⟨_, ret⟩, ran, rfl⟩ := Option.map_eq_some_iff.mp stepped
    exact gdmaCtrl_read valid ran valid'
  | told status channel value =>
    cases stepped
    exact FieldAt.read_write_of_apart s.regs value (l.apart_status valid' status valid)
  | ended channel =>
    cases stepped
    exact read_write_valid (k := .ofChannel channel .dmaEn) s.regs 0 valid valid'

theorem read_run {s t : Gdma} {events : List Event} (valid : ∀ e ∈ events, e.Valid) (ran : run s events = some t)
    {l : Loc} (valid' : l.Valid) :
    l.part.read t.regs = FieldAt.held Loc.part (events.flatMap Event.sets) l (l.part.read s.regs) := by
  induction events generalizing s with
  | nil =>
    cases ran
    rfl
  | cons e events ih =>
    obtain ⟨here, later⟩ := List.forall_mem_cons.mp valid
    rw [run_cons] at ran
    obtain ⟨mid, stepped, rest⟩ := Option.bind_eq_some_iff.mp ran
    rw [List.flatMap_cons, FieldAt.held_append, ← read_step here stepped valid']
    exact ih later rest

/-- What is read back from a field is what was set last for it; so with both pause addresses. -/
theorem Lens.read_back {s t : Gdma} {events part : List Event} {command : Command} (lens : Lens s events)
    (inside : part ++ [.ctrl command] <+: events) (ran : run s part = some t) {l : Loc} (valid : l.Valid)
    (reads : command.reads = some l.part) :
    ∃ t', gdmaCtrl t command =
      some (t', FieldAt.held Loc.part (part.flatMap Event.sets) l (l.part.read s.regs)) := by
  obtain ⟨t', answered, _⟩ := lens.right part command inside t ran
  have before : part <+: events := (List.prefix_append part _).trans inside
  rw [Command.result, reads, Option.elim_some, lens.last part before t ran l valid] at answered
  exact ⟨t', answered⟩

/-- In a run the law holds exactly when a destination is asked for only where it pauses as the source does, and no
channel is given as a null pointer. -/
theorem gdmaCtrl_lens_iff (s : Gdma) (events : List Event) (valid : ∀ e ∈ events, e.Valid) :
    Lens s events ↔ Along next (fun r e => ∀ t, r = some t → e.Fine t.regs) (some s) events := by
  rw [along_iff_each]
  constructor
  -- the values that are set play no part in this: no command can miss them
  · intro lens part e inside t ran
    cases e with
    | ctrl command =>
      have member : Event.ctrl command ∈ events := inside.subset (by simp)
      exact (right_iff (valid _ member)).mp (lens.right part command inside t ran)
    | told _ _ _ => trivial
    | ended _ => trivial
  · intro fine
    constructor
    · intro part command inside t ran
      have member : Event.ctrl command ∈ events := inside.subset (by simp)
      exact (right_iff (valid _ member)).mpr (fine part _ inside t ran)
    · intro part inside t ran l valid'
      exact read_run (fun e member => valid e (inside.subset member)) ran valid'

def idle : Gdma := ⟨fun _ => 0, fun _ => 0, fun _ => 0⟩

theorem gdmaCtrl_lens_of_equal_pauses :
    Lens idle [.ctrl (.withCfg .setSrcPauseAddr ⟨0x1000, 1⟩), .ctrl (.withCfg .setDstPauseAddr ⟨0x1000, 1⟩),
      .ctrl (.withCfg .setTransLength ⟨0x100, 1⟩), .ctrl (.withCfg .getDstPauseAddr ⟨0, 1⟩), .told .remainLen 2 5,
      .ctrl (.withChannel .getLeftLen 2), .ended 1] := by
  refine (gdmaCtrl_lens_iff idle _ ?_).mpr ?_
  · simp [Event.Valid, Command.Valid, GDMA_CHANNEL_MAX]
  · refine ⟨fun _ _ => trivial, fun _ _ => trivial, fun _ _ => trivial, ?_, fun _ _ => trivial, ?_,
      fun _ _ => trivial, trivial⟩
    · rintro t ran
      obtain rfl := Option.some.inj ran
      show BitField.get _ _ = BitField.get _ _
      decide
    · rintro t _
      show (2 : Word) ≠ 0
      decide

theorem not_gdmaCtrl_lens :
    ¬ Lens idle [.ctrl (.withCfg .setSrcPauseAddr ⟨0x1000, 1⟩), .ctrl (.withCfg .setDstPauseAddr ⟨0x2000, 1⟩),
      .ctrl (.withCfg .getDstPauseAddr ⟨0, 1⟩)] ∧
    ¬ Lens idle [.ctrl (.withChannel .getLeftLen 0)] := by
  constructor
  · intro lens
    obtain ⟨t, ran, _⟩ := lens.right [_, _] _ (List.prefix_refl _) _ rfl
    have ret := congrArg Prod.snd (Option.some.inj ran)
    dsimp only at ret
    exact absurd ret (by decide)
  · intro lens
    obtain ⟨t, ran, _⟩ := lens.right [] _ (List.prefix_refl _) _ rfl
    cases ran

end Bk7251.Dma
