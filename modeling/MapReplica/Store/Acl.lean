/-!
# Access rules

The rule under which an object is written, by its name in the object store.
-/

namespace MapReplica.Store

/-- A canned access rule. -/
inductive Acl where
  | ownerOnly
  | publicRead
  | publicReadWrite
  | authenticatedRead
  | awsExecRead
  | bucketOwnerRead
  | bucketOwnerFullControl
  deriving DecidableEq, Repr

namespace Acl

/-- All rules. -/
def all : List Acl :=
  [.ownerOnly, .publicRead, .publicReadWrite, .authenticatedRead, .awsExecRead, .bucketOwnerRead,
   .bucketOwnerFullControl]

/-- The name of a rule. -/
def name : Acl → String
  | .ownerOnly => "private"
  | .publicRead => "public-read"
  | .publicReadWrite => "public-read-write"
  | .authenticatedRead => "authenticated-read"
  | .awsExecRead => "aws-exec-read"
  | .bucketOwnerRead => "bucket-owner-read"
  | .bucketOwnerFullControl => "bucket-owner-full-control"

/-- The rule of a name. -/
def ofName? (name : String) : Option Acl :=
  all.find? (·.name == name)

/-- The wording of a name that no rule has. -/
def unknownMessage (name : String) : String :=
  "unknown S3 ACL '" ++ name ++ "'"

end Acl

end MapReplica.Store
