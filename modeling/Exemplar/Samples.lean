import Exemplar.CommandLine.Target

/-! A library to try the commands on.

`arithmetic:sums` is a specification that holds, `arithmetic:products` one with a mistake in
it, and `arithmetic:zero` a plain value. -/
namespace Exemplar.Samples

open CommandLine

/-- One statement on a subject. -/
def expect (subject : Term) (verb : String) (expected : List Term) : Step :=
  .assert none (some subject) verb expected [] false

def group (name : String) (steps : List Step) : Step :=
  .describe none (.text name) (.script none steps) false

def spec (description : String) (steps : List Step) : Step :=
  .it none (.text description) (.script none steps) false

def source (steps : List Step) : Source := ⟨steps, .bare, none⟩

/-- A variable that is added to, in the group and in the group inside it. -/
def sums : List Step :=
  [group "sums"
    [.before none (.script none [.set "sum" (.int 2)]) false,
     spec "starts with what was set" [expect (.variable "sum") "equals" [.int 2]],
     group "of two numbers"
       [.before none (.script none [.add "sum" (.int 3)]) false,
        spec "counts both" [expect (.variable "sum") "equals" [.int 5]],
        spec "is not one of them" [expect (.variable "sum") "is_not_equal_to" [.int 3]]]]]

def products : List Step :=
  [group "products"
    [.given none [.int 0, .int 7]
      [(.text "are zero if a factor is", .script none [expect (.argument 0) "equals" [.int 0]]),
       (.text "are never zero", .script none [expect (.argument 0) "equals" [.int 7]])] false]]

def library : Library :=
  [("arithmetic",
    [("sums", .specification (.text "Sums") (source sums)),
     ("products", .builder (source products)),
     ("zero", .value (.int 0))])]

end Exemplar.Samples
