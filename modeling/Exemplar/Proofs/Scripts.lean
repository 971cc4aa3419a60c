import Exemplar.Proofs.Store
import Exemplar.Specification.Run

/-! Programs that need no verbs in a module.

A builder function of style `helper` gets the verbs from its module, where they are only if they
were merged into it. A program is `Helperless` if no builder function in it is of that style, also
in the procedures that it makes, and so is a store if its scripts are. -/
namespace Exemplar

mutual

def Term.Helperless : Term → Prop
  | .list _ items | .tuple _ items | .set _ items | .error _ items => Term.AllHelperless items
  | .mapping _ entries => Term.EntriesHelperless entries
  | .object _ fields | .element _ fields => Term.FieldsHelperless fields
  | .procedure body | .answering body _ => body.Helperless
  | .define _ t => t.Helperless
  | _ => True

def Term.AllHelperless : List Term → Prop
  | [] => True
  | t :: rest => t.Helperless ∧ Term.AllHelperless rest

def Term.EntriesHelperless : List (Term × Term) → Prop
  | [] => True
  | (k, t) :: rest => k.Helperless ∧ t.Helperless ∧ Term.EntriesHelperless rest

def Term.FieldsHelperless : List (String × Term) → Prop
  | [] => True
  | (_, t) :: rest => t.Helperless ∧ Term.FieldsHelperless rest

def Body.Helperless : Body → Prop
  | .absent => True
  | .script _ steps => Step.AllHelperless steps
  | .value t => t.Helperless

def Step.Helperless : Step → Prop
  | .describe _ name body _ => name.Helperless ∧ body.Helperless
  | .before _ body _ | .after _ body _ => body.Helperless
  | .it _ description body _ => description.Helperless ∧ body.Helperless
  | .given _ args its _ => Term.AllHelperless args ∧ Step.ItsHelperless its
  | .assert _ subject _ args named _ =>
    Term.OptionHelperless subject ∧ Term.AllHelperless args ∧ Term.FieldsHelperless named
  | .shortcut _ _ args named _ | .call _ _ args named _ | .invoke _ args named _ =>
    Term.AllHelperless args ∧ Term.FieldsHelperless named
  | .bind _ _ subject => Term.OptionHelperless subject
  | .wait _ ms body => ms.Helperless ∧ body.Helperless
  | .report passed message => passed.Helperless ∧ Term.OptionHelperless message
  | .extend verbs _ => Step.VerbsHelperless verbs
  | .raise _ args => Term.AllHelperless args
  | .attempt steps | .thread steps => Step.AllHelperless steps
  | .log value | .set _ value | .add _ value | .push _ value | .globalMode value => value.Helperless
  | .build builder style _ => style.source ≠ .moduleNames ∧ Step.AllHelperless builder
  | .specify name builder style _ _ =>
    name.Helperless ∧ style.source ≠ .moduleNames ∧ Step.AllHelperless builder
  | .setTitle title => title.Helperless
  | .declareGroup name setup teardown => name.Helperless ∧ setup.Helperless ∧ teardown.Helperless
  | .runTest description body => description.Helperless ∧ body.Helperless
  | .take .. | .cursor | .forest | .verbs _ | .pause | .resume => True

def Term.OptionHelperless : Option Term → Prop
  | none => True
  | some t => t.Helperless

def Step.ItsHelperless : List (Term × Body) → Prop
  | [] => True
  | (description, body) :: rest =>
    description.Helperless ∧ body.Helperless ∧ Step.ItsHelperless rest

def Step.VerbsHelperless : List (Term × Body × Option Term) → Prop
  | [] => True
  | (name, body, aliases) :: rest =>
    name.Helperless ∧ body.Helperless ∧ Term.OptionHelperless aliases ∧ Step.VerbsHelperless rest

def Step.AllHelperless : List Step → Prop
  | [] => True
  | p :: rest => p.Helperless ∧ Step.AllHelperless rest

end

namespace Heap

def Helperless (h : Heap) : Prop := ∀ r steps, h.script? r = some steps → Step.AllHelperless steps

theorem Inert.helperless {h h' : Heap} (k : h.Inert h') (hh : h.Helperless) : h'.Helperless :=
  fun r steps hr => hh r steps (k.scripts r steps hr)

theorem Helperless.cell? {h : Heap} (hh : h.Helperless) {v : Value} {c : Cell} (hc : h.cell? v = some c)
    (steps : List Step) (hs : c.script? = some steps) : Step.AllHelperless steps := by
  cases v with
  | object r =>
    have hr : h.get? r = some c := hc
    exact hh r steps (by rw [script?, hr]; exact hs)
  | _ => cases hc

theorem Helperless.alloc {h : Heap} (hh : h.Helperless) {c : Cell}
    (hc : ∀ steps, c.script? = some steps → Step.AllHelperless steps) : (h.alloc c).1.Helperless := by
  intro r steps hr
  rw [script?_alloc] at hr
  split at hr
  · exact hc steps hr
  · exact hh r steps hr

end Heap

end Exemplar
