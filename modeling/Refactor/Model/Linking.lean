import Refactor.Model.CodeModel

/-!
# Linking definitions to declarations

A member function may be declared in its class and defined elsewhere. Such a definition is an
operation outside of classes that names a class and has a body. Linking moves the body into
the first declaration of the first class of that name that has the same name and parameter
types and no body yet. A declaration that leaves a parameter unnamed takes over the
definition's parameters. A definition that finds no declaration stays where it is.

Values given to class attributes outside of the class are treated alike.
-/

namespace Refactor

/-- Whether a declaration awaits this definition. -/
def Operation.awaits (declared definition : Operation) : Bool :=
  declared.name == definition.name && declared.body.isNone &&
    declared.sameParameterTypes definition

/-- The declaration with the definition's body. -/
def Operation.withDefinition (declared definition : Operation) : Operation :=
  { declared with
    body := definition.body
    parameters :=
      if declared.parameters.any fun p => p.name == "" then definition.parameters
      else declared.parameters }

namespace CodeModel

/-- Moves a definition into its declaration, if there is one. -/
def attach? (m : CodeModel) (definition : Operation) : Option CodeModel :=
  match definition.className, definition.body with
  | some className, some _ =>
    m.modifyClass? className fun c =>
      (modifyFirst? (fun declared => declared.awaits definition)
        (fun declared => declared.withDefinition definition) c.operations).map fun operations =>
          { c with operations := operations }
  | _, _ => none

/-- Gives a class attribute its value, if class and attribute are known. -/
def giveValue? (m : CodeModel) (i : StaticInitializer) : Option CodeModel :=
  m.modifyClass? i.className fun c =>
    c.modifyAttribute? i.attributeName fun a => { a with initialValue := some i.value }

/-- Moves one definition into its declaration or keeps it. -/
def linkDefinition (m : CodeModel) (definition : Operation) : CodeModel :=
  (m.attach? definition).getD { m with operations := m.operations ++ [definition] }

/-- Gives one attribute its value or keeps the value waiting. -/
def linkInitializer (m : CodeModel) (i : StaticInitializer) : CodeModel :=
  (m.giveValue? i).getD (m.defer i)

/-- Moves all definitions into their declarations and gives attributes their values. -/
def link (m : CodeModel) : CodeModel :=
  let linked := m.operations.foldl linkDefinition { m with operations := [] }
  linked.deferred.foldl linkInitializer { linked with deferred := [] }

end CodeModel

end Refactor
