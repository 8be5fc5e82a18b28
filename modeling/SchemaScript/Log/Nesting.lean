import SchemaScript.Log.Record

/-!
Programs as far as their log goes: they log, enter blocks, fail, and catch what fails. The contexts
of the blocks around a place are a stack. A block puts its own on top when it is entered and takes
it off when it is left, also by a failure.
-/

namespace SchemaScript.Log

/-- What a block is entered with, by name. Names other than `extra` and those of aspects are of no
account. -/
abbrev Keywords := List (String × Value)

namespace Keywords

def value? (keywords : Keywords) (aspect : Aspect) : Option Value := keywords.lookup aspect.name

def extra (keywords : Keywords) : List (Value × Value) :=
  match keywords.lookup "extra" with
  | some (.mapping entries) => entries
  | _ => []

def isRefused (keywords : Keywords) : Bool :=
  match keywords.lookup "extra" with
  | none => false
  | some (.mapping _) => false
  | some _ => true

def block (keywords : Keywords) : Block where
  aspects := Aspect.all.filterMap fun aspect => (keywords.value? aspect).map (aspect, ·)
  extra := keywords.extra

end Keywords

structure Remark where
  logger : String
  component : Option Component
  level : Level
  message : String
  own : List (Value × Value)
  exception : Option String

def Remark.record (remark : Remark) (context : Context) : Record where
  logger := loggerName remark.logger
  level := remark.level
  message := remark.message
  context := context
  data := dataOf remark.own context remark.component
  exception := remark.exception

inductive Step
  | log (remark : Remark)
  | fail
  | guarded (body : List Step)
  | block (keywords : Keywords) (body : List Step)

structure Passage where
  stack : List Context
  records : List Record
  failed : Bool

def current (stack : List Context) : Context := stack.head?.getD .empty

mutual

def Step.run (stack : List Context) : Step → Passage
  | .log remark => ⟨stack, [remark.record (current stack)], false⟩
  | .fail => ⟨stack, [], true⟩
  | .guarded body => { runAll stack body with failed := false }
  | .block keywords body =>
    if keywords.isRefused then ⟨stack, [], true⟩
    else
      let inside := runAll ((current stack).enter keywords.block :: stack) body
      { inside with stack := inside.stack.tail }

/-- Nothing is done after a failure. -/
def runAll (stack : List Context) : List Step → Passage
  | [] => ⟨stack, [], false⟩
  | step :: rest =>
    let first := step.run stack
    if first.failed then first
    else
      let others := runAll first.stack rest
      { others with records := first.records ++ others.records }

end

end SchemaScript.Log
