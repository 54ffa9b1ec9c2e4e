/-!
The changes that make the tables of a store, in the order in which they are applied, and the changes
that undo them. A change is a list of statements; the first that fails ends it.
-/

namespace Herald

structure Migration where
  name : String
  up : List String
  down : List String
  deriving DecidableEq, Repr

namespace Migration

def schemaAndUsers : Migration where
  name := "m20260301_000001_create_schema_and_users"
  up :=
    ["CREATE SCHEMA IF NOT EXISTS blind",
      "CREATE TABLE IF NOT EXISTS blind.users ( "
        ++ "id UUID PRIMARY KEY DEFAULT gen_random_uuid(), "
        ++ "nickname VARCHAR(50) NOT NULL, "
        ++ "created_at TIMESTAMPTZ NOT NULL DEFAULT NOW(), "
        ++ "updated_at TIMESTAMPTZ NOT NULL DEFAULT NOW() )"]
  down := ["DROP TABLE IF EXISTS blind.users", "DROP SCHEMA IF EXISTS blind"]

def notifications : Migration where
  name := "m20260301_000002_create_notifications"
  up :=
    ["CREATE TYPE blind.notification_type AS ENUM "
        ++ "('REVIEW_APPROVED', 'REVIEW_REJECTED', 'COMMENT_CREATED', 'REPLY_CREATED')",
      "CREATE TABLE IF NOT EXISTS blind.notifications ( "
        ++ "id UUID PRIMARY KEY DEFAULT gen_random_uuid(), "
        ++ "user_id UUID NOT NULL REFERENCES blind.users(id) ON DELETE CASCADE, "
        ++ "notification_type blind.notification_type NOT NULL, "
        ++ "is_read BOOLEAN NOT NULL DEFAULT FALSE, "
        ++ "post_id UUID, post_title VARCHAR(255), comment_content TEXT, content_id UUID, "
        ++ "reason TEXT, created_at TIMESTAMPTZ NOT NULL DEFAULT NOW(), "
        ++ "UNIQUE(user_id, content_id) )",
      "CREATE INDEX IF NOT EXISTS idx_notifications_user_created_at "
        ++ "ON blind.notifications(user_id, created_at DESC)",
      "CREATE INDEX IF NOT EXISTS idx_notifications_user_unread "
        ++ "ON blind.notifications(user_id) WHERE is_read = FALSE"]
  down :=
    ["DROP TABLE IF EXISTS blind.notifications", "DROP TYPE IF EXISTS blind.notification_type"]

def all : List Migration := [schemaAndUsers, notifications]

inductive Direction
  | up
  | down
  deriving DecidableEq, Repr

def statements (migration : Migration) : Direction → List String
  | .up => migration.up
  | .down => migration.down

/-- The statements issued to a store that accepts `allowed` of them, and whether all were accepted. -/
def issued : (allowed : Nat) → (statements : List String) → List String × Bool
  | _, [] => ([], true)
  | 0, statement :: _ => ([statement], false)
  | allowed + 1, statement :: rest =>
    let (others, isComplete) := issued allowed rest
    (statement :: others, isComplete)

end Migration

end Herald
