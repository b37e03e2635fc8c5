import Interposition.Proofs.Hook.Wrapping
import Interposition.Proofs.Operation.Sparing
/-!
Chains of wrappers.

Each hook of a chain hands its wrapper the handler that it displaced, and the chain is
taken back by patching these handlers in again, the last one first.  Meanwhile others do
what they like, as long as they leave the callable and the slots of the chain alone.
`Chained` is what holds all the time: calls go to the last wrapper that was not taken
back, and each wrapper finds the handler under it in its slot.  Every move keeps it
(`Chained.runAll`), and it makes a call the composition of the wrappers
(`Chained.computes`).
-/

namespace Interposition

/-- What others do to an image, beside a chain. -/
inductive Aside where
  | call (operation : Operation)
  /-- Save a handler in a slot, as a hook on another name may do. -/
  | save (slot : String) (handler : Handler)

namespace Aside

def run : Aside → Image → Image
  | .call operation, image => (image.onHost operation.run).2
  | .save slot handler, image => image.save slot handler

def runAll (asides : List Aside) (image : Image) : Image :=
  asides.foldl (fun image aside => aside.run image) image

/-- Whether a callable and slots are left alone. -/
def Spares (entry : Callable) (slots : List String) : Aside → Prop
  | .call operation => operation.Spares entry
  | .save slot _ => slot ∉ slots

instance (entry : Callable) (slots : List String) :
    (aside : Aside) → Decidable (aside.Spares entry slots)
  | .call operation => inferInstanceAs (Decidable (operation.Spares entry))
  | .save slot _ => inferInstanceAs (Decidable (slot ∉ slots))

end Aside

/-- A step of the one who makes a chain of wrappers. -/
inductive ChainTurn where
  /-- Hook a wrapper, and hand it the handler that the hook displaced. -/
  | wrap (wrapper : Wrapper)
  /-- Patch the handler in that a wrapper was handed. -/
  | unwrap (wrapper : Wrapper)

/-- Carry out a turn on a name.  Others may act in the middle of it. -/
def ChainTurn.run (name : Name) (meanwhile : List Aside) : ChainTurn → Image → Image
  | .wrap wrapper, image =>
    let (result, hooked) :=
      image.onHost (Host.hook wrapper.deny name wrapper.handler wrapper.owner)
    let later := Aside.runAll meanwhile hooked
    match result with
    | .ok (.patched previous) => later.save wrapper.slot previous
    | _ => later
  | .unwrap wrapper, image =>
    let later := Aside.runAll meanwhile image
    match image.saved.get? wrapper.slot with
    | some previous => (later.onHost (Host.patch name previous)).2
    | none => later

/-- What happens next: a turn, in the middle of which others may act, or what others do. -/
inductive Move where
  | own (turn : ChainTurn) (meanwhile : List Aside)
  | foreign (aside : Aside)

namespace Move

def run (name : Name) : Move → Image → Image
  | .own turn meanwhile, image => turn.run name meanwhile image
  | .foreign aside, image => aside.run image

def runAll (name : Name) (moves : List Move) (image : Image) : Image :=
  moves.foldl (fun image move => move.run name image) image

def turn? : Move → Option ChainTurn
  | .own turn _ => some turn
  | .foreign _ => none

/-- What others do in a move. -/
def asides : Move → List Aside
  | .own _ meanwhile => meanwhile
  | .foreign aside => [aside]

end Move

/-- The handler on top of a stack of wrappers, the last one first, over a first handler. -/
def Wrapper.top (first : Handler) (stack : List Wrapper) : Handler :=
  (stack.head?.map (·.handler)).getD first

/-- How turns change a stack of wrappers, each of which is one of those given. -/
inductive ChainTurn.Stacks (wrappers : List Wrapper) :
    List Wrapper → List ChainTurn → List Wrapper → Prop where
  | nil (stack : List Wrapper) : Stacks wrappers stack [] stack
  | wrap {wrapper : Wrapper} {stack final : List Wrapper} {rest : List ChainTurn}
      (given : wrapper ∈ wrappers) (new : wrapper ∉ stack)
      (stacked : Stacks wrappers (wrapper :: stack) rest final) :
      Stacks wrappers stack (.wrap wrapper :: rest) final
  | unwrap {wrapper : Wrapper} {under final : List Wrapper} {rest : List ChainTurn}
      (stacked : Stacks wrappers under rest final) :
      Stacks wrappers (wrapper :: under) (.unwrap wrapper :: rest) final

namespace ChainTurn.Stacks

variable {wrappers stack middle final : List Wrapper} {first second : List ChainTurn}

theorem append (stacked : Stacks wrappers stack first middle)
    (onward : Stacks wrappers middle second final) :
    Stacks wrappers stack (first ++ second) final := by
  induction stacked with
  | nil => exact onward
  | wrap given new _ inductionHypothesis => exact .wrap given new (inductionHypothesis onward)
  | unwrap _ inductionHypothesis => exact .unwrap (inductionHypothesis onward)

/-- Wrappers that are hooked in order stand on the stack in the opposite order. -/
theorem wraps {added : List Wrapper} (given : ∀ wrapper ∈ added, wrapper ∈ wrappers)
    (distinct : added.Nodup) (new : ∀ wrapper ∈ added, wrapper ∉ stack) :
    Stacks wrappers stack (added.map .wrap) (added.reverse ++ stack) := by
  induction added generalizing stack with
  | nil => exact .nil stack
  | cons wrapper rest inductionHypothesis =>
      obtain ⟨here, later⟩ := List.forall_mem_cons.mp given
      obtain ⟨absent, distinct⟩ := List.nodup_cons.mp distinct
      obtain ⟨newHere, newLater⟩ := List.forall_mem_cons.mp new
      rw [List.reverse_cons, List.append_assoc]
      refine .wrap here newHere (inductionHypothesis later distinct fun other member => ?_)
      rw [List.mem_cons, not_or]
      exact ⟨fun same => absent (same ▸ member), newLater other member⟩

/-- Wrappers on top of the stack are taken back from the top. -/
theorem unwraps (taken under : List Wrapper) :
    Stacks wrappers (taken ++ under) (taken.map .unwrap) under := by
  induction taken with
  | nil => exact .nil under
  | cons wrapper rest inductionHypothesis => exact .unwrap inductionHypothesis

end ChainTurn.Stacks

/-- What holds of a chain of wrappers all the time, started from an image.  The stack holds
the wrappers that were handed a handler and not taken back, the last one first. -/
structure Chained (start : Image) (kept : List String) (entry : Callable) (first : Handler)
    (stack : List Wrapper) (handler : Handler) (image : Image) : Prop where
  dispatches : image.host.registry.Dispatches entry handler
  /-- Each wrapper finds the handler under it in its slot. -/
  handed : ∀ wrapper under, wrapper :: under <:+ stack →
    image.saved.get? wrapper.slot = some (Wrapper.top first under)
  /-- The code is still the same, and what the first handler uses. -/
  agrees : start.Agrees kept image

namespace Chained

variable {start image : Image} {kept : List String} {entry : Callable}
  {first handler other : Handler} {wrappers stack under final : List Wrapper} {wrapper : Wrapper}

/-- The slots that others leave alone. -/
def slots (kept : List String) (wrappers : List Wrapper) : List String :=
  kept ++ wrappers.map (·.slot)

theorem mem_slots (member : wrapper ∈ wrappers) : wrapper.slot ∈ slots kept wrappers :=
  List.mem_append_right _ (List.mem_map_of_mem member)

/-- Saving a handler in another slot keeps a chain. -/
theorem save (chained : Chained start kept entry first stack handler image)
    {slot : String} (unkept : slot ∉ kept) (unused : ∀ wrapper ∈ stack, wrapper.slot ≠ slot)
    (saved : Handler) : Chained start kept entry first stack handler (image.save slot saved) where
  dispatches := chained.dispatches
  handed wrapper under suffix := by
    have different := unused wrapper (suffix.subset List.mem_cons_self)
    exact (OrderedMap.get?_append_of_ne _ different _).trans (chained.handed wrapper under suffix)
  agrees := by
    refine ⟨chained.agrees.programs, fun other member => ?_⟩
    have different : other ≠ slot := ne_of_mem_of_not_mem member unkept
    exact (OrderedMap.get?_append_of_ne _ different _).trans (chained.agrees.saved other member)

/-- What others do keeps a chain. -/
theorem aside (chained : Chained start kept entry first stack handler image)
    (given : ∀ wrapper ∈ stack, wrapper ∈ wrappers) {aside : Aside}
    (spares : aside.Spares entry (slots kept wrappers)) :
    Chained start kept entry first stack handler (aside.run image) := by
  cases aside with
  | call operation =>
      exact ⟨Operation.dispatches_run spares chained.dispatches, chained.handed,
        chained.agrees.onHost operation.run⟩
  | save slot saved =>
      obtain ⟨unkept, -⟩ := not_or.mp (mt List.mem_append.mpr spares)
      refine chained.save unkept (fun wrapper member same => spares ?_) saved
      exact same ▸ mem_slots (given wrapper member)

theorem asides (chained : Chained start kept entry first stack handler image)
    (given : ∀ wrapper ∈ stack, wrapper ∈ wrappers) {asides : List Aside}
    (spares : ∀ aside ∈ asides, aside.Spares entry (slots kept wrappers)) :
    Chained start kept entry first stack handler (Aside.runAll asides image) := by
  induction asides generalizing image with
  | nil => exact chained
  | cons aside rest inductionHypothesis =>
      obtain ⟨here, later⟩ := List.forall_mem_cons.mp spares
      exact inductionHypothesis (chained.aside given here) later

/-- The callable of a chain is given another handler. -/
theorem retarget (chained : Chained start kept entry first stack handler image)
    (other : Handler) :
    Chained start kept entry first stack other
      { image with
        host := ⟨image.host.registry.retarget entry.id other,
          image.host.log ++ [.patched entry.name entry.owner]⟩ } where
  dispatches :=
    { wellFormed := chained.dispatches.wellFormed.retarget entry.id other
      found := by rw [Registry.get?_retarget, chained.dispatches.found]
      target := Registry.targets_retarget_self _ _ _ }
  handed := chained.handed
  agrees := ⟨chained.agrees.programs, chained.agrees.saved⟩

/-- A wrapper is hooked, and handed the handler that it displaced. -/
theorem wrap (chained : Chained start kept entry first stack (Wrapper.top first stack) image)
    (distinct : (slots kept wrappers).Nodup) (given : ∀ wrapper ∈ stack, wrapper ∈ wrappers)
    (member : wrapper ∈ wrappers) (new : wrapper ∉ stack) {meanwhile : List Aside}
    (spares : ∀ aside ∈ meanwhile, aside.Spares entry (slots kept wrappers)) :
    Chained start kept entry first (wrapper :: stack) wrapper.handler
      ((ChainTurn.wrap wrapper).run entry.name meanwhile image) := by
  obtain ⟨-, distinctSlots, apart⟩ := List.nodup_append.mp distinct
  have hooked := Host.hook_of_found wrapper.deny wrapper.handler wrapper.owner
    chained.dispatches.found
  have unkept : wrapper.slot ∉ kept := fun present =>
    apart _ present _ (List.mem_map_of_mem member) rfl
  have unused : ∀ other ∈ stack, other.slot ≠ wrapper.slot := by
    intro other present same
    exact new (List.inj_on_of_nodup_map distinctSlots (given other present) member same ▸ present)
  simp only [ChainTurn.run, Image.onHost, hooked]
  have later := ((chained.retarget wrapper.handler).asides given spares).save unkept unused
    (image.host.registry.target entry)
  refine ⟨later.dispatches, ?_, later.agrees⟩
  intro other under suffix
  rcases List.suffix_cons_iff.mp suffix with same | within
  · cases same
    rw [← chained.dispatches.target]
    exact OrderedMap.get?_append_self _ _ _
  · exact later.handed other under within

/-- A wrapper is taken back: the handler that it was handed is patched in. -/
theorem unwrap (chained : Chained start kept entry first (wrapper :: under) handler image)
    (given : ∀ other ∈ wrapper :: under, other ∈ wrappers) {meanwhile : List Aside}
    (spares : ∀ aside ∈ meanwhile, aside.Spares entry (slots kept wrappers)) :
    Chained start kept entry first under (Wrapper.top first under)
      ((ChainTurn.unwrap wrapper).run entry.name meanwhile image) := by
  have later := chained.asides given spares
  have patched := Host.patch_of_found (Wrapper.top first under) later.dispatches.found
  simp only [ChainTurn.run, chained.handed wrapper under (List.suffix_refl _), Image.onHost,
    patched]
  have fewer := later.retarget (Wrapper.top first under)
  refine ⟨fewer.dispatches, fun other rest suffix => ?_, fewer.agrees⟩
  exact fewer.handed other rest (suffix.trans (List.suffix_cons wrapper under))

/-- A run of moves keeps a chain, whose stack changes with its own turns. -/
theorem runAll (distinct : (slots kept wrappers).Nodup) {moves : List Move}
    (spares : ∀ move ∈ moves, ∀ aside ∈ move.asides, aside.Spares entry (slots kept wrappers))
    (given : ∀ wrapper ∈ stack, wrapper ∈ wrappers)
    (stacked : ChainTurn.Stacks wrappers stack (moves.filterMap Move.turn?) final)
    (chained : Chained start kept entry first stack (Wrapper.top first stack) image) :
    Chained start kept entry first final (Wrapper.top first final)
      (Move.runAll entry.name moves image) := by
  induction moves generalizing stack image with
  | nil =>
      cases stacked
      exact chained
  | cons move rest inductionHypothesis =>
      obtain ⟨here, later⟩ := List.forall_mem_cons.mp spares
      cases move with
      | foreign aside =>
          refine inductionHypothesis later given stacked (chained.aside given ?_)
          exact here aside (List.mem_singleton_self aside)
      | own turn meanwhile =>
          cases stacked with
          | wrap member new stacked =>
              have hooked := chained.wrap distinct given member new here
              exact inductionHypothesis later (List.forall_mem_cons.mpr ⟨member, given⟩) stacked
                hooked
          | unwrap stacked =>
              have taken := chained.unwrap given here
              exact inductionHypothesis later (List.forall_mem_cons.mp given).2 stacked taken

/-- What calls of a chain compute. -/
theorem computes {base : List Value → Value} (computes : start.Computes kept first base)
    (code : ∀ wrapper ∈ stack, start.programs wrapper.handler = wrapper.program)
    (chained : Chained start kept entry first stack handler image) :
    image.Computes (stack.map (·.slot) ++ kept) (Wrapper.top first stack)
      (Wrapper.compose base stack.reverse) := by
  obtain ⟨-, handed, agrees⟩ := chained
  induction stack with
  | nil => exact computes.of_agrees agrees
  | cons wrapper under inductionHypothesis =>
      obtain ⟨here, later⟩ := List.forall_mem_cons.mp code
      rw [List.reverse_cons, Wrapper.compose_concat]
      refine Image.computes_wrapper ?_ (handed wrapper under (List.suffix_refl _)) ?_
      · rw [agrees.programs, here]
      · refine inductionHypothesis later fun other rest suffix => ?_
        exact handed other rest (suffix.trans (List.suffix_cons wrapper under))

end Chained

/-- Wrappers hooked in order over the handler of a callable, each handed the handler that its
hook displaced, and the last of them taken back again in the opposite order, make a call of
the callable what the wrappers that are left compute over that handler: with all of them taken
back, what the handler itself computes.  The callable stays the entry that it is, and each
wrapper that is left was handed the handler under it.  What others do in between, as long as
they leave the callable and the slots alone, does not matter. -/
theorem Move.composes_runAll {held : EntryId → Prop} {start : Image}
    (reaches : Host.Reaches held .empty start.host) {name : Name} {entry : Callable}
    (found : start.host.registry.get? .callable name = some entry) {kept : List String}
    {base : List Value → Value}
    (computes : start.Computes kept (start.host.registry.target entry) base)
    {wrappers : List Wrapper} (distinct : (kept ++ wrappers.map (·.slot)).Nodup)
    (code : ∀ wrapper ∈ wrappers, start.programs wrapper.handler = wrapper.program)
    {moves : List Move} {undone : Nat}
    (turns : moves.filterMap Move.turn? =
      wrappers.map .wrap ++ (wrappers.reverse.take undone).map .unwrap)
    (spares : ∀ move ∈ moves, ∀ aside ∈ move.asides,
      aside.Spares entry (kept ++ wrappers.map (·.slot))) :
    let first := start.host.registry.target entry
    let left := wrappers.take (wrappers.length - undone)
    let final := runAll name moves start
    (∀ arguments, ∃ depth, ∀ deeper, depth ≤ deeper →
      final.callNamed deeper name arguments =
        some (some (Wrapper.compose base left arguments), final)) ∧
      final.host.registry.get? .callable name = some entry ∧
      final.host.registry.target entry = (left.getLast?.map (·.handler)).getD first ∧
      ∀ before wrapper after, left = before ++ wrapper :: after →
        final.saved.get? wrapper.slot = some ((before.getLast?.map (·.handler)).getD first) := by
  intro first left final
  have wellFormed := reaches.evolves.wellFormed Registry.wellFormed_empty
  obtain rfl : entry.name = name := wellFormed.name_eq found
  have started : Chained start kept entry first [] first start :=
    { dispatches := ⟨wellFormed, found, rfl⟩
      handed := fun _ _ suffix => absurd (List.eq_nil_of_suffix_nil suffix) (List.cons_ne_nil _ _)
      agrees := .refl kept start }
  have topReverse (before : List Wrapper) :
      Wrapper.top first before.reverse = (before.getLast?.map (·.handler)).getD first := by
    rw [Wrapper.top, List.head?_reverse]
  -- All wrappers are put on the stack, and some of them are taken from it again.
  have stacked : ChainTurn.Stacks wrappers [] (moves.filterMap Move.turn?) left.reverse := by
    have wrapped : ChainTurn.Stacks wrappers [] (wrappers.map .wrap) (wrappers.reverse ++ []) :=
      .wraps (fun _ member => member) (List.Nodup.of_map _ (List.nodup_append.mp distinct).2.1)
        fun _ _ => List.not_mem_nil
    have unwrapped : ChainTurn.Stacks wrappers
        (wrappers.reverse.take undone ++ wrappers.reverse.drop undone)
        ((wrappers.reverse.take undone).map .unwrap) (wrappers.reverse.drop undone) :=
      .unwraps _ _
    rw [List.take_append_drop, List.drop_reverse] at unwrapped
    rw [turns]
    exact (List.append_nil wrappers.reverse ▸ wrapped).append unwrapped
  have chained := started.runAll distinct spares (List.forall_mem_nil _) stacked
  have given : ∀ wrapper ∈ left.reverse, start.programs wrapper.handler = wrapper.program :=
    fun wrapper member => code wrapper (List.mem_of_mem_take (List.mem_reverse.mp member))
  refine ⟨fun arguments => ?_, chained.dispatches.found, ?_, ?_⟩
  · obtain ⟨depth, called⟩ := chained.computes computes given final (.refl _ final) arguments
    refine ⟨depth, fun deeper more => ?_⟩
    have resolved : final.host.registry.resolve? entry.name =
        some (Wrapper.top first left.reverse) := by
      rw [Registry.resolve?, chained.dispatches.found, Option.map_some, chained.dispatches.target]
    rw [List.reverse_reverse] at called
    have deeperCalled := Image.invoke_mono more called
    rw [Image.callNamed, resolved]
    exact Option.map_eq_some_iff.mpr ⟨_, deeperCalled, rfl⟩
  · exact chained.dispatches.target.trans (topReverse left)
  · intro before wrapper after split
    rw [← topReverse before]
    refine chained.handed wrapper before.reverse ⟨after.reverse, ?_⟩
    rw [split]
    simp

/-- Two wrappers of a callable of the platform, the second of which asks twice.  Its owner is
evicted before the first hook, another name is hooked before the first wrapper is handed what
it displaced, and in the end the second wrapper is taken back. -/
theorem Move.composes_runAll_of_nested :
    let name : Name := ⟨[0x6E]⟩
    let other : Name := ⟨[0x6F]⟩
    let owner : Owner := ⟨0, "owner"⟩
    let content : Option Value → List UInt8
      | some (.bytes content) => content
      | _ => []
    let tally (arguments : List Value) : Value := .bytes (arguments.map fun _ => 0x61)
    let twice : Wrapper :=
      { handler := ⟨1⟩
        slot := "first"
        body := fun arguments => .ask arguments fun answer =>
          .done (.bytes (content answer ++ content answer))
        deny := .empty
        owner := ⟨1, "hooker"⟩ }
    let beside : Wrapper :=
      { handler := ⟨2⟩
        slot := "second"
        body := fun arguments => .ask arguments fun all => .ask arguments.tail fun fewer =>
          .done (.bytes (content all ++ 0x2D :: content fewer))
        deny := .empty
        owner := ⟨1, "hooker"⟩ }
    let programs (handler : Handler) : Program :=
      if handler = ⟨1⟩ then twice.program else if handler = ⟨2⟩ then beside.program
      else fun arguments => .done (tally arguments)
    let host := ((Operation.define (.callable name owner .intrinsic ⟨0⟩)).run .empty).2
    let start : Image := ⟨host, programs, .empty, 3⟩
    let hooking : List Move :=
      [.foreign (.call (.evict .callable owner)),
        .own (.wrap twice) [.call (.hook .empty other ⟨2⟩ owner), .save "third" ⟨2⟩],
        .foreign (.call (.patch other ⟨1⟩)), .own (.wrap beside) []]
    let final := runAll name hooking start
    let undone := runAll name (hooking ++ [.own (.unwrap beside) []]) start
    (∃ depth, ∀ deeper, depth ≤ deeper →
      final.callNamed deeper name [.null, .null] =
        some (some (.bytes [0x61, 0x61, 0x61, 0x61, 0x2D, 0x61, 0x61]), final)) ∧
      final.host.registry.resolve? name = some ⟨2⟩ ∧
      (∃ depth, ∀ deeper, depth ≤ deeper →
        undone.callNamed deeper name [.null, .null] =
        some (some (.bytes [0x61, 0x61, 0x61, 0x61]), undone)) ∧
      undone.host.registry.get? .callable name = some ⟨0, name, owner, Origin.intrinsic⟩ := by
  intro name other owner content tally twice beside programs host start hooking final undone
  have reaches : Host.Reaches (fun _ => False) .empty start.host := .operation (.refl _) _
  have found : start.host.registry.get? .callable name = some ⟨0, name, owner, Origin.intrinsic⟩ :=
    rfl
  have computes : start.Computes [] ⟨0⟩ tally := by
    intro image agrees arguments
    refine ⟨1, ?_⟩
    rw [Image.invoke, agrees.programs]
    rfl
  have code : ∀ wrapper ∈ [twice, beside],
      start.programs wrapper.handler = wrapper.program := by
    rintro wrapper (_ | ⟨_, _ | ⟨_, ⟨⟩⟩⟩) <;> rfl
  have wraps : hooking.filterMap turn? =
      [twice, beside].map .wrap ++ ([twice, beside].reverse.take 0).map .unwrap := rfl
  have unwraps : (hooking ++ [own (.unwrap beside) []]).filterMap turn? =
      [twice, beside].map .wrap ++ ([twice, beside].reverse.take 1).map .unwrap := rfl
  have hooked := composes_runAll reaches found computes (by decide) code wraps
    (show ∀ move ∈ hooking, _ by decide)
  have taken := composes_runAll reaches found computes (by decide) code unwraps
    (show ∀ move ∈ hooking ++ [own (.unwrap beside) []], _ by decide)
  -- The runs themselves are not evaluated.
  rw [show runAll name hooking start = final from rfl] at hooked
  rw [show runAll name (hooking ++ [.own (.unwrap beside) []]) start = undone from rfl] at taken
  obtain ⟨called, bound, target, -⟩ := hooked
  obtain ⟨calledLater, boundLater, -, -⟩ := taken
  have resolved : final.host.registry.resolve? name = some ⟨2⟩ := by
    rw [Registry.resolve?, bound]
    exact congrArg some target
  exact ⟨called [.null, .null], resolved, calledLater [.null, .null], boundLater⟩

end Interposition
