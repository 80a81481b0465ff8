import Cartograph.Rules.Table

/-!
# Rules for AWS

The rule table that is used for resource types of the provider `aws`.
-/

namespace Cartograph.Rules.Aws

/-- A handler that consists of operations. -/
def handler (description : String) (operations : List Operation) : HandlerConfig :=
  ⟨description, operations, none, .after⟩

/-- A handler that consists of a callback. -/
def callbackHandler (description callback : String) : HandlerConfig :=
  ⟨description, [], some callback, .after⟩

/-- How instances are placed into the network. -/
def network : PhaseConfig := ⟨"network", none, [
  ("aws_subnet", handler "place each subnet inside an availability zone container" [
    .insertIntermediate (.ofType "aws_vpc") (.ofType "aws_subnet")
      ⟨"aws_az", "availability_zone", "", some "zone", false⟩]),
  ("aws_nat_gateway", handler "move NAT gateways into the subnet they are deployed in" [
    .move none (.ofType "aws_subnet")]),
  ("aws_route_table", handler "route tables are implied by subnet placement" [
    .delete none true])]⟩

/-- What runs behind load balancers and in clusters. -/
def compute : PhaseConfig := ⟨"compute", none, [
  ("aws_lb_listener",
    callbackHandler "connect load balancers straight to target groups" "aws_lb_listeners"),
  ("aws_lb", handler "reflect backend scaling on the load balancer" [
    .propagate "desired_count" .fromChildren .max false none,
    .matchBySuffix (.ofType "aws_lb") (.ofType "aws_instance")]),
  ("aws_ecs_service", handler "surface service task count on the cluster" [
    .propagate "desired_count" .up .max true none])]⟩

/-- What runs other things. -/
def orchestration : PhaseConfig := ⟨"orchestration", none, [
  ("aws_eks_node_group",
    callbackHandler "place node groups under their cluster with worker capacity"
      "aws_eks_node_groups"),
  ("aws_efs_mount_target",
    handler "mount targets pair with the file system instance of the same number" [
      .matchBySuffix (.ofType "aws_efs_mount_target") (.ofType "aws_instance")])]⟩

/-- The rule table. -/
def table : Table where
  provider := "aws"
  starts := ["aws_"]
  groupTypes := [.ofType "aws_vpc", .ofType "aws_az", .ofType "aws_subnet",
    .ofType "aws_security_group", .ofType "aws_group", .ofType "aws_eks_cluster"]
  reverseArrowTypes := [.ofType "aws_vpc", .ofType "aws_subnet"]
  hiddenTypes := [.ofType "aws_route_table_association", .ofType "aws_security_group_rule",
    .ofType "aws_vpc_security_group_ingress_rule", .ofType "aws_vpc_security_group_egress_rule",
    .ofType "aws_iam_role_policy_attachment", .ofType "aws_iam_policy_attachment",
    .ofType "aws_lb_target_group_attachment", .ofType "aws_lambda_permission",
    .ofType "aws_main_route_table_association"]
  impliedConnections := [
    ⟨"arn:aws:iam::[^\"\\s]*:role/", "aws_iam_role"⟩,
    ⟨"(?i)\\bsqs\\b|sqs_queue", "aws_sqs_queue"⟩,
    ⟨"(?i)\\bsns\\b|sns_topic", "aws_sns_topic"⟩,
    ⟨"(?i)dynamodb", "aws_dynamodb_table"⟩]
  variants := [
    ⟨"aws_lb", "load_balancer_type",
      [("application", "alb"), ("gateway", "gwlb"), ("network", "nlb")], some "alb"⟩,
    ⟨"aws_instance", "instance_lifecycle", [("spot", "spot")], none⟩,
    ⟨"aws_db_instance", "engine",
      [("aurora-mysql", "aurora"), ("aurora-postgresql", "aurora"), ("mysql", "mysql"),
        ("postgres", "postgres")], none⟩]
  cardinalityRules := [⟨"aws_lb", "subnets"⟩, ⟨"aws_alb", "subnets"⟩,
    ⟨"aws_efs_mount_target", "subnet_ids"⟩]
  consolidation := [
    ⟨.ofType "aws_route53_record", "aws_route53_record.dns"⟩,
    ⟨.ofType "aws_cloudwatch_log_group", "aws_cloudwatch_log_group.logs"⟩,
    ⟨.ofType "aws_api_gateway_resource", "aws_api_gateway_rest_api.api"⟩]
  protectiveTypes := [.ofType "aws_security_group"]
  sharedServices := some ⟨"aws_group.shared_services", [
    .ofType "aws_iam_role", .ofType "aws_iam_policy", .ofType "aws_kms_key",
    .ofType "aws_ecr_repository", .ofType "aws_cloudwatch_log_group",
    .ofType "aws_acm_certificate", .ofType "aws_ssm_parameter",
    .ofType "aws_secretsmanager_secret"]⟩
  autoLinks := [
    ⟨"tv_aws_internet.internet", .ofType "aws_internet_gateway", some "internet"⟩,
    ⟨"tv_aws_users.users", .ofType "aws_cloudfront_distribution", none⟩]
  phases := [
    ⟨"consolidation", some .consolidation, []⟩,
    network,
    ⟨"protective", some .protective, []⟩,
    compute,
    orchestration,
    ⟨"shared_services", some .sharedServices, []⟩]

end Cartograph.Rules.Aws
