import Trakrai.Lib.Text
import Trakrai.Lib.Userset

namespace Trakrai.Authz
open Lib

inductive AuthzRelation where
  | admin
  | canNavigate
  | canManageUsers
  | canRead
  | canWrite
  | child
  | parent
  | reader
  | viewer
  | writer
deriving DecidableEq, Repr

inductive AuthzType where
  | user
  | factory
  | department
  | device
  | deviceComponent
deriving DecidableEq, Repr

/-- The string `type:id`. -/
structure AuthzObject where
  type : AuthzType
  id : String
deriving DecidableEq, Repr

def createAuthzObject (type : AuthzType) (id : String) : AuthzObject := ⟨type, id⟩

def createAuthzUser (userId : String) : AuthzObject := ⟨.user, userId⟩

def splitRoleList (value : Option String) : List String :=
  ((jsSplit ',' (value.getD "")).map jsTrim).filter (· != "")

def isSysAdminRole (value : Option String) : Bool := (splitRoleList value).contains "admin"

abbrev TupleKey := Tuple AuthzObject AuthzRelation

structure TypeDefinition where
  type : AuthzType
  relations : List (AuthzRelation × Userset AuthzRelation)
  metadata : List (AuthzRelation × List AuthzType)

def createDirectUserset : Userset AuthzRelation := .this

def createComputedUserset (relation : AuthzRelation) : Userset AuthzRelation := .computed relation

def createParentUserset (relation : AuthzRelation) : Userset AuthzRelation :=
  .tupleToUserset .parent relation

def createChildUserset (relation : AuthzRelation) : Userset AuthzRelation :=
  .tupleToUserset .child relation

def createUnionUserset (children : List (Userset AuthzRelation)) : Userset AuthzRelation :=
  .union children

def createTypeDefinitions : List TypeDefinition :=
  [{ type := .user
     relations := []
     metadata := [] },
   { type := .factory
     relations :=
      [(.admin, createDirectUserset), (.canNavigate, createUnionUserset
         [createComputedUserset .canRead, createChildUserset .canNavigate]),
       (.canManageUsers, createComputedUserset .admin),
       (.canRead, createComputedUserset .viewer),
       (.child, createDirectUserset),
       (.viewer, createUnionUserset [createDirectUserset, createComputedUserset .admin])]
     metadata :=
      [(.admin, [.user]), (.child, [.department]), (.viewer, [.user])] },
   { type := .department
     relations :=
      [(.admin, createUnionUserset [createDirectUserset, createParentUserset .admin]),
       (.canNavigate, createUnionUserset
         [createComputedUserset .canRead, createChildUserset .canNavigate]),
       (.canManageUsers, createComputedUserset .admin),
       (.canRead, createComputedUserset .viewer),
       (.child, createDirectUserset),
       (.parent, createDirectUserset),
       (.viewer, createUnionUserset
         [createDirectUserset, createComputedUserset .admin, createParentUserset .viewer])]
     metadata :=
      [(.admin, [.user]), (.child, [.device]), (.parent, [.factory]), (.viewer, [.user])] },
   { type := .device
     relations :=
      [(.admin, createParentUserset .admin), (.canNavigate, createUnionUserset
         [createComputedUserset .canRead, createChildUserset .canNavigate]),
       (.canManageUsers, createComputedUserset .admin),
       (.canRead, createComputedUserset .viewer),
       (.child, createDirectUserset),
       (.parent, createDirectUserset),
       (.viewer, createUnionUserset
         [createDirectUserset, createComputedUserset .admin, createParentUserset .viewer])]
     metadata :=
      [(.child, [.deviceComponent]), (.parent, [.department]), (.viewer, [.user])] },
   { type := .deviceComponent
     relations :=
      [(.canNavigate, createComputedUserset .canRead),
       (.canManageUsers, createParentUserset .admin),
       (.canRead, createComputedUserset .reader),
       (.canWrite, createComputedUserset .writer),
       (.parent, createDirectUserset),
       (.reader, createUnionUserset
         [createDirectUserset, createComputedUserset .writer, createParentUserset .viewer]),
       (.writer, createDirectUserset)]
     metadata :=
      [(.parent, [.device]), (.reader, [.user]), (.writer, [.user])] }]

def authorizationModel : List TypeDefinition := createTypeDefinitions

def typeDefinition (type : AuthzType) : Option TypeDefinition :=
  authorizationModel.find? (·.type == type)

def rewriteOf (object : AuthzObject) (relation : AuthzRelation) : Option (Userset AuthzRelation) :=
  (typeDefinition object.type).bind fun definition => definition.relations.lookup relation

/-- `directly_related_user_types`. -/
def directTypes (type : AuthzType) (relation : AuthzRelation) : List AuthzType :=
  ((typeDefinition type).bind fun definition => definition.metadata.lookup relation).getD []

def isAllowed (t : TupleKey) : Bool :=
  (directTypes t.object.type t.relation).contains t.user.type

/-- `user` has `relation` on `object` under the tuples of the store. -/
def check (store : TupleKey → Prop) (user : AuthzObject) (relation : AuthzRelation)
    (object : AuthzObject) : Prop :=
  Related rewriteOf store object relation user

def createObjectParentTupleKeys (objectType : AuthzType) (objectId : String)
    (parentType : AuthzType) (parentId : String) : TupleKey × TupleKey :=
  let object := createAuthzObject objectType objectId
  let parentObject := createAuthzObject parentType parentId
  (⟨object, .parent, parentObject⟩, ⟨parentObject, .child, object⟩)

/-- A store whose parent and child tuples describe one forest. -/
structure Hierarchy (store : TupleKey → Prop) : Prop where
  allowed : ∀ {t}, store t → isAllowed t
  mirrored : ∀ o p, store ⟨o, .parent, p⟩ ↔ store ⟨p, .child, o⟩
  parent_unique : ∀ {o p p'}, store ⟨o, .parent, p⟩ → store ⟨o, .parent, p'⟩ → p = p'

end Trakrai.Authz
