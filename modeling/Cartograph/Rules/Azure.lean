import Cartograph.Rules.Table

/-!
# Rules for Azure

The rule table that is used for resource types of the provider `azurerm`.
-/

namespace Cartograph.Rules.Azure

/-- How virtual machines are placed into the network. -/
def network : PhaseConfig := ⟨"network", none, [
  ("azurerm_*virtual_machine",
    ⟨"place virtual machines in the subnet of their network interface",
      [.move none (.ofType "azurerm_subnet")], none, .after⟩),
  ("azurerm_network_interface",
    ⟨"network interfaces are drawn as part of their virtual machine",
      [.delete none false], none, .after⟩)]⟩

/-- How node pools are placed into clusters. -/
def orchestration : PhaseConfig := ⟨"orchestration", none, [
  ("azurerm_kubernetes_cluster_node_pool",
    ⟨"node pools belong inside their cluster",
      [.move none (.ofType "azurerm_kubernetes_cluster")], none, .after⟩)]⟩

/-- The rule table. -/
def table : Table where
  provider := "azurerm"
  starts := ["azurerm_"]
  groupTypes := [.ofType "azurerm_resource_group", .ofType "azurerm_virtual_network",
    .ofType "azurerm_subnet", .ofType "azurerm_network_security_group", .ofType "azurerm_group",
    .ofType "azurerm_kubernetes_cluster"]
  reverseArrowTypes := [.ofType "azurerm_resource_group", .ofType "azurerm_virtual_network",
    .ofType "azurerm_subnet"]
  hiddenTypes := [.ofType "azurerm_subnet_network_security_group_association",
    .ofType "azurerm_network_interface_security_group_association",
    .ofType "azurerm_role_assignment"]
  impliedConnections := [⟨"(?i)\\.vault\\.azure\\.net", "azurerm_key_vault"⟩]
  variants := [⟨"azurerm_lb", "sku",
    [("Basic", "basic"), ("Gateway", "gateway"), ("Standard", "standard")], some "basic"⟩]
  cardinalityRules := [⟨"azurerm_network_interface", "ip_configuration"⟩]
  consolidation := [⟨.ofType "azurerm_dns_a_record", "azurerm_dns_a_record.dns"⟩]
  protectiveTypes := [.ofType "azurerm_network_security_group"]
  sharedServices := some ⟨"azurerm_group.shared_services", [
    .ofType "azurerm_key_vault", .ofType "azurerm_log_analytics_workspace",
    .ofType "azurerm_container_registry", .ofType "azurerm_user_assigned_identity"]⟩
  autoLinks := []
  phases := [
    ⟨"consolidation", some .consolidation, []⟩,
    network,
    ⟨"protective", some .protective, []⟩,
    orchestration,
    ⟨"shared_services", some .sharedServices, []⟩]

end Cartograph.Rules.Azure
