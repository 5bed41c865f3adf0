import ProtoSchema.Naming

/-!
# Options of a document

A document has a package and a root message, whose names must not be empty, a text that is put in
front of every generated name, and a choice between short and qualified names. Options are given as
a list of settings that override what went before. An unknown setting is refused first; then the
package and the root message are checked, in this order.
-/

namespace ProtoSchema

/-- The options of a document. -/
structure Options where
  /-- The package of the document. -/
  package : String := "default"
  /-- The name of the root message, without the text in front. -/
  rootMessage : String := "Message"
  /-- The text in front of every generated name. -/
  typeLead : String := ""
  /-- Whether generated names hold the keys of the enclosing objects. -/
  qualifyNames : Bool := false
  /-- The package has a name. -/
  package_ne : package ≠ "" := by decide
  /-- The root message has a name. -/
  rootMessage_ne : rootMessage ≠ "" := by decide

/-- Why options are refused. -/
inductive OptionError where
  /-- The package name is empty. -/
  | emptyPackage
  /-- The name of the root message is empty. -/
  | emptyRootMessage
  /-- There is no option of that name. -/
  | unknown (name : String)
  deriving DecidableEq

/-- The text that reports why options are refused. -/
def OptionError.message : OptionError → String
  | .emptyPackage => "package_name must not be empty"
  | .emptyRootMessage => "root_message_name must not be empty"
  | .unknown name => "ProtoOptions.__init__() got an unexpected keyword argument '" ++ name ++ "'"

/-- A setting of one option. -/
inductive Setting where
  /-- The package. -/
  | package (name : String)
  /-- The name of the root message. -/
  | rootMessage (name : String)
  /-- The text in front of every generated name. -/
  | typeLead (lead : String)
  /-- Whether names are qualified. -/
  | qualifyNames (qualify : Bool)
  /-- An option that does not exist. -/
  | unknown (name : String)
  deriving DecidableEq

/-- The option that a setting names, if it does not exist. -/
def Setting.unknownName? : Setting → Option String
  | .unknown name => some name
  | _ => none

namespace Options

/-- The options with the given texts, if none of those that need a text is empty. -/
def check (package rootMessage typeLead : String) (qualifyNames : Bool) :
    Except OptionError Options :=
  if hp : package = "" then .error .emptyPackage
  else if hr : rootMessage = "" then .error .emptyRootMessage
  else
    .ok { package, rootMessage, typeLead, qualifyNames, package_ne := hp, rootMessage_ne := hr }

/-- The values of the options, as they are before they are checked. -/
structure Draft where
  /-- The package of the document. -/
  package : String
  /-- The name of the root message. -/
  rootMessage : String
  /-- The text in front of every generated name. -/
  typeLead : String
  /-- Whether names are qualified. -/
  qualifyNames : Bool

/-- The draft with one more setting made. -/
def Draft.set (draft : Draft) : Setting → Draft
  | .package name => { draft with package := name }
  | .rootMessage name => { draft with rootMessage := name }
  | .typeLead lead => { draft with typeLead := lead }
  | .qualifyNames qualify => { draft with qualifyNames := qualify }
  | .unknown _ => draft

/-- The options with settings made on top, if those are all known and leave no name empty. -/
def override (options : Options) (settings : List Setting) : Except OptionError Options :=
  match settings.findSome? Setting.unknownName? with
  | some name => .error (.unknown name)
  | none =>
    let draft := settings.foldl Draft.set
      ⟨options.package, options.rootMessage, options.typeLead, options.qualifyNames⟩
    check draft.package draft.rootMessage draft.typeLead draft.qualifyNames

/-- The namer that the options describe. -/
def namer (options : Options) : Namer :=
  ⟨options.typeLead, options.qualifyNames⟩

/-- Options stay as they are when nothing is set. -/
theorem override_nil (options : Options) : options.override [] = .ok options := by
  simp [override, check, options.package_ne, options.rootMessage_ne]

/-- Checked options hold the texts that were checked. -/
theorem check_eq_ok {package rootMessage typeLead : String} {qualifyNames : Bool}
    (hp : package ≠ "") (hr : rootMessage ≠ "") :
    check package rootMessage typeLead qualifyNames =
      .ok { package, rootMessage, typeLead, qualifyNames, package_ne := hp, rootMessage_ne := hr } := by
  simp [check, hp, hr]

end Options

end ProtoSchema
