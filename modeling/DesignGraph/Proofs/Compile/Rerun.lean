import DesignGraph.Proofs.Compile.Contents
import DesignGraph.Proofs.Compile.Frame
import DesignGraph.Proofs.Compile.Run
import DesignGraph.Proofs.Compile.Singleton

/-!
# Calls after calls

A compiler is called again and again, with programs of one project. Of what it has put together for
one call nothing shows in the next: a call answers as the same call does that is made first on a
compiler for the same program. Two things do last, by design: the address of the hot server and the
place of its assets.
-/

namespace DesignGraph

/-- Programs whose packages have the same place and name. -/
structure Program.SharesProject (program other : Program) : Prop where
  name_eq : program.projectName = other.projectName
  root_eq : program.projectRoot = other.projectRoot
  options_eq : program.options = other.options

theorem Setup.ofProgram_eq {program first : Program} (shared : program.SharesProject first)
    (target : Target) (installed : Path) (bindings : OrderedMap String Binding)
    (host other : Except String String) :
    ofProgram target installed bindings host program =
      { ofProgram target installed bindings other first with host := host } := by
  simp only [ofProgram, Target.sdkRootOf, shared.name_eq, shared.root_eq, shared.options_eq]

inductive Call
  | start
  | run (program : Option Program)

namespace Call

def perform (setup : Setup) : Call → Compilation CompilationResult
  | start => Compilation.start setup
  | run program? => Compilation.run setup program?

/-- The program that a call compiles, on a compiler that holds a program already. -/
def programOn (held : Program) : Call → Program
  | start => held
  | run program? => program?.getD held

theorem sharesProject_programOn {call : Call} {held first : Program}
    (shared : ∀ program, call = .run (some program) → program.SharesProject first)
    (heldShares : held.SharesProject first) : (call.programOn held).SharesProject first := by
  cases call with
  | start => exact heldShares
  | run program? =>
    cases program? with
    | none => exact heldShares
    | some program => exact shared program rfl

end Call

/-- A call at some time: what the host answers then, and the files that there are. -/
structure Order where
  call : Call
  host : Except String String
  tree : FileTree

namespace Compilation

variable {setup : Setup} {compiler other : Compiler}

/-- How an order ends on a compiler. -/
def fulfilled (setup : Setup) (compiler : Compiler) (order : Order) :
    Except Fault CompilationResult × Compiler :=
  outcome (order.call.perform { setup with host := order.host })
    { compiler with tree := order.tree }

/-- The compiler after a number of orders, whether they succeed or not. -/
def afterAll (setup : Setup) (compiler : Compiler) (orders : List Order) : Compiler :=
  orders.foldl (fun compiler order => (fulfilled setup compiler order).2) compiler

@[simp] theorem afterAll_nil : afterAll setup compiler [] = compiler := rfl

@[simp] theorem afterAll_cons (order : Order) (rest : List Order) :
    afterAll setup compiler (order :: rest) =
      afterAll setup (fulfilled setup compiler order).2 rest :=
  rfl

/-! ## The program at hand -/

theorem preserves_runCleared : Preserves Compiler.program (runCleared setup) := by
  have walked : Preserves Compiler.program (walkRoots setup) := by
    intro compiler
    have same : keptByWalk setup _ = keptByWalk setup compiler := preserves_walkRoots compiler
    exact congrArg (·.1.program) same
  exact walked.bind fun _ => preserves_writePackage.bind fun _ => preserves_get.bind fun _ =>
    preserves_pure _

theorem program_run (program? : Option Program) :
    (outcome (run setup program?) compiler).2.program = program?.getD compiler.program := by
  rw [outcome_run]
  exact preserves_runCleared _

theorem preserves_start : Preserves Compiler.program (start setup) := by
  have validated : Preserves Compiler.program (validateOptions setup) := by
    refine preserves_get.bind fun compiler => ?_
    simp only
    split_ifs
    · exact preserves_throw _
    · exact preserves_pure _
  have prepared : Preserves Compiler.program (prepareHot setup) := by
    unfold prepareHot
    split
    · exact preserves_throw _
    · exact preserves_modify fun _ => rfl
  have rerun : Preserves Compiler.program (run setup none) := fun _ => program_run none
  refine validated.bind fun _ => preserves_get.bind fun _ => ?_
  split_ifs
  · exact prepared.bind fun _ => rerun
  · exact rerun

/-- After a call the compiler holds the program that the call has compiled. -/
theorem program_fulfilled (order : Order) :
    (fulfilled setup compiler order).2.program = order.call.programOn compiler.program := by
  unfold fulfilled
  cases order.call with
  | start => exact preserves_start _
  | run program? => exact program_run program?

theorem sharesProject_afterAll {first : Program} {orders : List Order}
    (shared : ∀ order ∈ orders, ∀ program, order.call = .run (some program) →
      program.SharesProject first) (held : compiler.program.SharesProject first) :
    (afterAll setup compiler orders).program.SharesProject first := by
  induction orders generalizing compiler with
  | nil => exact held
  | cons order rest ih =>
    refine ih (fun later member => shared later (List.mem_cons_of_mem _ member)) ?_
    rw [program_fulfilled]
    exact Call.sharesProject_programOn (shared order List.mem_cons_self) held

/-! ## What a call depends on -/

/-- Two compilers from which calls end alike. -/
structure SameFooting (compiler other : Compiler) : Prop where
  program_eq : compiler.program = other.program
  tree_eq : compiler.tree = other.tree
  hotUrl_eq : compiler.hotUrl = other.hotUrl
  hotStaticRoot_eq : compiler.hotStaticRoot = other.hotStaticRoot

/-- The same answer or the same fault, and after an answer the same compiler. -/
def Agree (ending other : Except Fault CompilationResult × Compiler) : Prop :=
  ending.1 = other.1 ∧ ∀ result, ending.1 = .ok result → ending.2 = other.2

theorem Agree.of_eq {ending other : Except Fault CompilationResult × Compiler}
    (same : ending = other) : Agree ending other := by
  subst same
  exact ⟨rfl, fun _ _ => rfl⟩

/-- Nothing that a run begins from is left of an earlier one. -/
theorem run_congr {program? : Option Program}
    (programs : program?.getD compiler.program = program?.getD other.program)
    (trees : compiler.tree = other.tree) (urls : compiler.hotUrl = other.hotUrl)
    (roots : compiler.hotStaticRoot = other.hotStaticRoot) :
    outcome (run setup program?) compiler = outcome (run setup program?) other := by
  have same : begun setup (program?.getD compiler.program) compiler =
      begun setup (program?.getD other.program) other := by
    simp only [begun, programs, trees, urls, roots]
  rw [outcome_run, outcome_run, same]

/-- To run the program at hand is to run. -/
theorem outcome_run_self :
    outcome (run setup (some compiler.program)) compiler = outcome (run setup none) compiler := by
  rw [outcome_run, outcome_run]
  rfl

/-- The options are checked by the program alone. -/
theorem validateOptions_outcome (setup : Setup) (program : Program) :
    ∃ checked, ∀ compiler : Compiler, compiler.program = program →
      outcome (validateOptions setup) compiler = (checked, compiler) := by
  by_cases refused :
      (setup.target = .ios && !isVersion (deploymentTarget program)) = true
  · refine ⟨.error (.compilation (.deploymentTarget (deploymentTarget program))), ?_⟩
    rintro compiler rfl
    rw [validateOptions, outcome_get_bind]
    simp only [refused, if_true]
    rfl
  · refine ⟨.ok (), ?_⟩
    rintro compiler rfl
    rw [validateOptions, outcome_get_bind]
    simp only [refused]
    rfl

theorem start_agrees (same : SameFooting compiler other) :
    Agree (outcome (start setup) compiler) (outcome (start setup) other) := by
  obtain ⟨checked, validated⟩ := validateOptions_outcome setup other.program
  rw [start, outcome_bind, outcome_bind, validated compiler same.program_eq, validated other rfl]
  cases checked with
  | error fault => exact ⟨rfl, by simp⟩
  | ok _ =>
    simp only [outcome_get_bind, same.program_eq]
    split_ifs
    · simp only [outcome_bind, prepareHot]
      cases setup.host with
      | error reason => exact ⟨rfl, by intro _ h; cases h⟩
      | ok host =>
        refine .of_eq (run_congr same.program_eq same.tree_eq ?_ ?_)
        · exact congrArg (fun program : Program =>
            some ("http://" ++ host ++ ":" ++ toString program.options.hotPort)) same.program_eq
        · exact congrArg (some <| hotStaticRootOf setup.target ·) same.program_eq
    · exact .of_eq (run_congr same.program_eq same.tree_eq same.hotUrl_eq same.hotStaticRoot_eq)

/-- No state leaks from one call to the next. After any history of calls, each answered or failed,
with programs of one project and whatever the host and the files were at the time, a call ends as it
does on a compiler that is new and set up for the program that the call compiles, given the same
files, host and hot addresses. -/
theorem call_agrees_with_new_compiler (target : Target) (installed : Path)
    (bindings : OrderedMap String Binding) (host : Except String String) (tree : FileTree)
    {first : Program} {history : List Order} {order : Order}
    (shared : ∀ given ∈ history ++ [order], ∀ program, given.call = .run (some program) →
      program.SharesProject first) :
    let setup := Setup.ofProgram target installed bindings host first
    let used := afterAll setup (setup.compiler first tree) history
    let program := order.call.programOn used.program
    let newSetup := Setup.ofProgram target installed bindings order.host program
    let new := { newSetup.compiler program order.tree with
      hotUrl := used.hotUrl
      hotStaticRoot := used.hotStaticRoot }
    Agree (fulfilled setup used order) (fulfilled newSetup new order) ∧
      (order.call ≠ .start → fulfilled setup used order = fulfilled newSetup new order) := by
  intro setup used program newSetup new
  have heldShares : used.program.SharesProject first :=
    sharesProject_afterAll (fun given member => shared given (List.mem_append_left _ member))
      ⟨rfl, rfl, rfl⟩
  have shares : program.SharesProject first :=
    Call.sharesProject_programOn
      (shared order (List.mem_append_right _ (List.mem_singleton_self _))) heldShares
  have sameSetup : newSetup = { setup with host := order.host } :=
    Setup.ofProgram_eq shares target installed bindings order.host host
  unfold fulfilled
  rw [sameSetup]
  cases call : order.call with
  | start =>
    have footing : SameFooting { used with tree := order.tree }
        { new with tree := order.tree } := by
      refine ⟨?_, rfl, rfl, rfl⟩
      change used.program = order.call.programOn used.program
      rw [call]
      rfl
    exact ⟨start_agrees footing, by simp⟩
  | run program? =>
    have same : outcome (Call.perform { setup with host := order.host } (.run program?))
          { used with tree := order.tree } =
        outcome (Call.perform { setup with host := order.host } (.run program?))
          { new with tree := order.tree } := by
      refine run_congr ?_ rfl rfl rfl
      change program?.getD used.program = program?.getD (order.call.programOn used.program)
      rw [call]
      cases program? <;> rfl
    exact ⟨.of_eq same, fun _ => same⟩

namespace Labelled

/-- The page of the label, with a title that is no instance. -/
def stray : Program :=
  { program with graph := { program.graph with
      instances := ⟨[("home", ⟨"home", "Page", ⟨[("title", .text "lost")]⟩⟩)]⟩ } }

theorem starts : (start iosSetup).Yields before ⟨iosSetup.sdkRoot, [manifest], [], data⟩
    { ready with tree := filled, isRunning := false } := by
  have validated : (validateOptions iosSetup).Yields before () before := by rfl
  refine yields_bind.mpr ⟨(), before, validated, ?_⟩
  rw [yields_get_bind, if_neg (by decide)]
  exact runs

def started : Order := ⟨.start, .ok "localhost", files⟩

def failed : Order := ⟨.run (some stray), .error "no address", {}⟩

def again : Order := ⟨.run (some program), .ok "localhost", files⟩

theorem fulfilled_started : fulfilled iosSetup before started =
    (.ok ⟨iosSetup.sdkRoot, [manifest], [], data⟩,
      { ready with tree := filled, isRunning := false }) :=
  starts

theorem fulfilled_again : fulfilled iosSetup before again =
    (.ok ⟨iosSetup.sdkRoot, [manifest], [], data⟩,
      { ready with tree := filled, isRunning := false }) := by
  have same : outcome (run iosSetup (some before.program)) before =
      outcome (run iosSetup none) before :=
    outcome_run_self
  exact same.trans runs

/-- The call with the stray title fails, and leaves the hot addresses. -/
theorem fulfilled_failed (compiler : Compiler) :
    (fulfilled iosSetup compiler failed).1 = .error (.graph (.unknownInstance (.text "lost"))) ∧
      (fulfilled iosSetup compiler failed).2.hotUrl = compiler.hotUrl ∧
      (fulfilled iosSetup compiler failed).2.hotStaticRoot = compiler.hotStaticRoot :=
  ⟨rfl, rfl, rfl⟩

theorem no_hot_address_is_left :
    (afterAll iosSetup before [started, failed]).hotUrl = none ∧
      (afterAll iosSetup before [started, failed]).hotStaticRoot = none := by
  obtain ⟨-, url, root⟩ := fulfilled_failed (fulfilled iosSetup before started).2
  rw [afterAll_cons, afterAll_cons, afterAll_nil, url, root, fulfilled_started]
  exact ⟨rfl, rfl⟩

end Labelled

/-- A page compiled once more, after it was started and after a call that failed. -/
theorem call_of_label_agrees :
    let setup := Labelled.iosSetup
    let new := Labelled.before
    let used := afterAll setup new [Labelled.started, Labelled.failed]
    (∃ result, (fulfilled setup new Labelled.started).1 = .ok result) ∧
      (∃ fault, (fulfilled setup (fulfilled setup new Labelled.started).2 Labelled.failed).1 =
        .error fault) ∧
      (∃ result, (fulfilled setup used Labelled.again).1 = .ok result) ∧
      fulfilled setup used Labelled.again = fulfilled setup { new with
        hotUrl := used.hotUrl
        hotStaticRoot := used.hotStaticRoot } Labelled.again := by
  intro setup new used
  have shared : ∀ given ∈ [Labelled.started, Labelled.failed] ++ [Labelled.again], ∀ program,
      given.call = .run (some program) → program.SharesProject Labelled.program := by
    intro given member program called
    simp only [List.cons_append, List.nil_append, List.mem_cons, List.not_mem_nil, or_false]
      at member
    rcases member with rfl | rfl | rfl
    · cases called
    · cases called
      exact ⟨rfl, rfl, rfl⟩
    · cases called
      exact ⟨rfl, rfl, rfl⟩
  have agrees : fulfilled setup used Labelled.again = fulfilled setup { new with
      hotUrl := used.hotUrl
      hotStaticRoot := used.hotStaticRoot } Labelled.again :=
    (call_agrees_with_new_compiler .ios ⟨"/", []⟩ _ (.ok "localhost") _ shared).2 nofun
  obtain ⟨urls, roots⟩ := Labelled.no_hot_address_is_left
  have fresh : { new with hotUrl := used.hotUrl, hotStaticRoot := used.hotStaticRoot } = new := by
    rw [urls, roots]
    rfl
  have completed := agrees.trans ((congrArg (fulfilled setup · Labelled.again) fresh).trans
    Labelled.fulfilled_again)
  exact ⟨⟨_, congrArg Prod.fst Labelled.fulfilled_started⟩, ⟨_, (Labelled.fulfilled_failed _).1⟩,
    ⟨_, congrArg Prod.fst completed⟩, agrees⟩

end Compilation

end DesignGraph
