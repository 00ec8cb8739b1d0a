import TieredVm.Session.Env

/-!
# Performing steps

Every operation of a session is one call into the machine, and its answer is what the call gave. A
panic leaves the operation without an answer, and whatever had changed by then stays changed.
-/

namespace TieredVm.Session

/-- What a session can do with an interpreter besides calling operators. An interpreter that has no
such thing does nothing and answers `undefined`. -/
structure Kit (G : Type) where
  /-- A new interpreter. -/
  fresh : G
  newText : String → Local G Value := fun _ => pure .undefined
  newSymbol : Local G Value := pure .undefined
  newObject : List String → Option Value → Local G Value := fun _ _ => pure .undefined
  newFunction : FunctionSpec → Bytecode → List Capture → Local G Value :=
    fun _ _ _ => pure .undefined
  failNext : Exception → Local G Unit := fun _ => pure ()
  script : List Reply → Local G Unit := fun _ => pure ()
  /-- What the interpreter kept track of since it was last asked. -/
  drain : Local G Answer
  /-- The text of the interpreter, if it has one. -/
  text : G → Option String := fun _ => none
  /-- For a value that refers to one of the interpreter's cells, the text it holds, if any. -/
  describe : G → Value → Option (Option String) := fun _ _ => none

variable {G : Type}

/-- Answers with a value, after storing it. -/
def answerValue (store : Option String) (v : Value) : Run (Hosted G) Answer := do
  storeValue store v
  return .value v

/-- Answers with a captured variable, after storing it. -/
def answerVariable (store : Option String) (c : Capture) : Run (Hosted G) Answer := do
  storeVariable store c
  let m ← get
  return .variable (m.captureShared c) (m.captureValue c) (← Run.expect (m.captureText c))

/-- Answers with the depth of the chain. -/
def answerDepth : Run (Hosted G) Answer := return .count (← get).chain.depth

/-- The words given, filled up with zeros or cut to the number wanted. -/
def exactly (n : Nat) (words : List Word) : Words n :=
  Vector.ofFn fun i => words[i.val]?.getD 0

/-- Performs an operator that is called directly. -/
def performOperator (I : Interpreter (Hosted G)) (k : HelperKind) (x y : Value)
    (store : Option String) : Run (Hosted G) Answer := do
  match k with
  | .binary op => answerValue store (← I.binary op x y)
  | .unary op => answerValue store (← I.unaryOp op x)
  | .logicalNot => answerValue store (← I.logicalNot x)
  | .typeOf => answerValue store (← I.typeOf x)
  | .toBool =>
    let b ← I.toBool x
    storeValue store (.ofBool b)
    return .flag b
  | _ => return .done

/-- Compiles an instruction's words. -/
def instrOf : InstrSpec → Run (Hosted G) Instr
  | .const w => return .const (← wordOf w)
  | .add a b => return .add a b
  | .select c a b => return .select c a b
  | .call k args => return .call k args
  | .require k => return .require k
  | .has k => return .has k

/-- Compiles a function with the newest compiler, and remembers it under a name. -/
def compileSource (store : String) (s : Source) : Run (Hosted G) Answer := do
  let compilers := (← env).compilers
  let place := compilers.size - 1
  match compilers[place]? with
  | none => return .done
  | some c =>
    let keep (c : SessionCompiler) : Run (Hosted G) Unit :=
      modifyEnv fun e => { e with compilers := e.compilers.set! place c }
    match c.compile s with
    | .ok a c => do
      keep c
      modifyEnv fun e => { e with compiled := (store, place, a) :: e.compiled }
      return .compiled s.params
    | .error (.refused e) c => do
      keep c
      return .refused e
    | .error (.panicked p) c => do
      keep c
      throw (.panic p)

/-- The word that stands for the context inside compiled code. -/
def contextWord : Word := 1

/-- Looks at an exception. -/
def answerException (e : Option Exception) : Run (Hosted G) Answer := do
  match e with
  | none => return .exception none
  | some e => return .exception (some (e, ← Run.expect e.report))

/-- Performs one operation. -/
def perform (I : Interpreter (Hosted G)) (kit : Kit G) : Op → Run (Hosted G) Answer
  | .operator k args asHelper store => do
    let values := args.map (← env).value
    if asHelper then
      let w ← I.callHelper k (exactly _ (values.map Word.ofValue))
      answerValue store w.toValue
    else
      performOperator I k (values[0]?.getD .undefined) (values[1]?.getD .undefined) store
  | .helper k words store => do
    let words ← words.mapM wordOf
    answerValue store (← I.callHelper k (exactly _ words)).toValue
  | .enter frame function args count route => do
    let id ← frameOf frame
    let function ← valueOf function
    let given ← bufferOf args
    noteBuffers id fun b => { b with args := given }
    let count := count.getD given.2
    match route with
    | .direct => I.enter id function given.1 count
    | .chain => Chain.enter id function given.1 count
    answerDepth
  | .attachLocals frame locals count route => do
    let id ← frameOf frame
    let given ← bufferOf locals
    noteBuffers id fun b => { b with locals := given }
    let count := count.getD given.2
    match route with
    | .direct => I.attachLocals id given.1 count
    | .chain => Chain.attachLocals id given.1 count
    answerDepth
  | .setPc frame pc => do
    I.setPc (← frameOf frame) pc
    answerDepth
  | .setPcIn frame function pc => do
    let id ← frameOf frame
    let code ← I.codeOf (← valueOf function)
    Chain.setPc id code pc
    answerDepth
  | .exit frame => do
    Chain.exit (← frameOf frame)
    answerDepth
  | .constant function index store => do
    answerValue store (← I.constantOf (← valueOf function) index)
  | .captured function index store => do
    answerValue store (← I.capturedOf (← valueOf function) index)
  | .code function => return .code (← I.codeOf (← valueOf function))
  | .frame frame => do
    match ← frameOf frame with
    | none => return .done
    | some id =>
      let f := (← get).frames.get id
      return .frame f (f.below.map (← env).frameName)
  | .buffers frame => do
    match ← frameOf frame with
    | none => return .buffers [] []
    | some id =>
      let given ← buffersOf id
      let m ← get
      return .buffers (m.buffer given.args.1 given.args.2)
        (m.buffer given.locals.1 given.locals.2)
  | .poke frame kind index v => do
    if let some id ← frameOf frame then
      let given ← buffersOf id
      let (base, count) := match kind with
        | .argument => given.args
        | .localVar => given.locals
      if count ≤ index then throw (.panic (.outOfBounds count index))
      let v ← valueOf v
      modify fun m => { m with memory := m.memory.set (Machine.slotAddress base index) v }
    return .done
  | .chain => do
    let chain := (← get).chain
    return .chain chain (chain.current.map (← env).frameName)
  | .walk => return .walk (Chain.walk (← get))
  | .trace => return .trace (← I.trace)
  | .currentArg index store => do answerValue store (← Chain.currentArg index)
  | .currentLocal index store => do answerValue store (← Chain.currentLocal index)
  | .setCurrentLocal index v => do
    Chain.setCurrentLocal index (← valueOf v)
    return .done
  | .setCurrentPc function pc => do
    let code ← I.codeOf (← valueOf function)
    Chain.setCurrentPc code pc
    return .done
  | .captureCurrent index kind store => do
    answerVariable store (← Chain.captureCurrent index kind)
  | .capture frame index kind store => do
    answerVariable store (← Chain.capture (← frameOf frame) index kind)
  | .newVariable v store => do
    answerVariable store (← Machine.addCapture (.owned (← valueOf v)))
  | .variable name store => do
    match (← env).captures.lookup name with
    | none => return .done
    | some c => answerVariable store c
  | .setVariable name v => do
    match (← env).captures.lookup name with
    | none => return .done
    | some c =>
      let v ← valueOf v
      modify fun m => m.setCapture c v
      answerVariable none c
  | .sameVariable a b => do
    let names := (← env).captures
    return .same (names.lookup a == names.lookup b)
  | .value v store => do answerValue store (← valueOf v)
  | .panic message => throw (.panic (.message message))
  | .raise e store => do answerValue store (← Machine.raise ((← env).exception e))
  | .hasException => return .flag (← get).pending.isSome
  | .exception => do answerException (← get).pending
  | .takeException => do answerException (← Machine.takePending)
  | .renewContext => fun m =>
    match Machine.takeDown m with
    | .ok runtime m => .ok (.renewed 0 false) (m.withContext runtime)
    | .error stop m => .error stop (m.withContext { m.runtime with guest := kit.fresh })
  | .contextText => do
    let m ← get
    match kit.text m.runtime.guest with
    | none => return .done
    | some t => return .text (← Run.expect (m.contextText t))
  | .drain => Run.onRuntime (hostLocal kit.drain)
  | .newText t store => do answerValue store (← Run.onRuntime (hostLocal (kit.newText t)))
  | .newSymbol store => do answerValue store (← Run.onRuntime (hostLocal kit.newSymbol))
  | .newObject keys constructor store => do
    let constructor := constructor.map (← env).value
    answerValue store (← Run.onRuntime (hostLocal (kit.newObject keys constructor)))
  | .newFunction f store => do
    let e ← env
    let make := kit.newFunction f (e.bytecode f) (e.variablesNamed f.captured)
    answerValue store (← Run.onRuntime (hostLocal make))
  | .failNext e => do
    let e := (← env).exception e
    Run.onRuntime (hostLocal (kit.failNext e))
    return .done
  | .newCompiler helpers => do
    match newCompiler (helpers.getD HelperKind.all) with
    | .error e => return .refused e
    | .ok c =>
      modifyEnv fun e => { e with compilers := e.compilers.push c }
      return .flag true
  | .compile name params body answer store => do
    let body ← body.mapM instrOf
    compileSource (store.getD name) { name, params, body, answer }
  | .invoke name args store => do
    let words ← args.mapM wordOf
    let e ← env
    match e.compiled.lookup name with
    | none => return .done
    | some (place, code) =>
      match e.compilers[place]? with
      | none => return .done
      | some c =>
        let call (r : Routine) (ws : List Word) : Run (Hosted G) Word :=
          r.call I (exactly _ ws.tail)
        match ← c.invoke call code contextWord words with
        | .error e => return .refused e
        | .ok w => answerValue store w.toValue

mutual

/-- Runs one step. -/
def runStep (I : Interpreter (Hosted G)) (kit : Kit G) : Step → Run (Hosted G) Answer
  | .op o => perform I kit o
  | .scope function args locals body => do
    let function ← valueOf function
    let (argBase, argCount) ← bufferOf (some args)
    let (localBase, localCount) ← bufferOf (some locals)
    let answers ← Chain.withFrame function argBase argCount localBase localCount
      (runSteps I kit body)
    let m ← get
    return .scope answers (m.buffer argBase argCount) (m.buffer localBase localCount)
      m.chain.depth
  | .caught s => fun m =>
    match runStep I kit s m with
    | .error (.panic p) m => .ok (.failed p) m
    | r => r
  | .script replies => do
    Run.onRuntime (hostLocal (kit.script replies))
    return .done

/-- Runs steps one after the other; the first that panics ends them all. -/
def runSteps (I : Interpreter (Hosted G)) (kit : Kit G) :
    List Step → Run (Hosted G) (List Answer)
  | [] => return []
  | s :: rest => do
    let a ← runStep I kit s
    return a :: (← runSteps I kit rest)

end

end TieredVm.Session
